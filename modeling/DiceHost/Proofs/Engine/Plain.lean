import DiceHost.Proofs.Engine.Bare

/-! # The message of a plain context

Outside a game, and without a character, the message of a call is a table of texts. What the
library of a new engine and such a message give for the names that a bare script reads.
-/
namespace DiceHost.Engine
open DiceHost.Text DiceHost.Script

/-! ## Tables without metatable -/

section Index
variable {s : State} {id fuel : Nat} {name : String} {v : Value}

theorem index_tableOf {entries : List (String × Value)} (htable : s.table id = tableOf entries)
    (hfind : (KeyTable.find? entries.reverse name).getD .nil = v) :
    s.index (fuel + 1) (.table id) (.ofString name) = .found v := by
  have hget : (s.table id).get (.ofString name) = v := by
    show (s.table id).getText name = v
    rw [htable, getText_tableOf, hfind]
  cases v with
  | nil => exact index_plain hget (by rw [htable, metatable_tableOf])
  | _ => exact index_own hget rfl

end Index

/-! ## The library -/

/-- The entries of the table of text methods. -/
def textMethodEntries : List (String × Value) := ("__index", .table 2) :: arithmeticMethods

structure Library (s : State) : Prop where
  size : 8 ≤ s.tables.size
  globals : s.table State.globals = tableOf globalEntries
  textMethods : s.table State.textMethods = tableOf textMethodEntries
  text : s.table 2 = tableOf textLibrary
  dice : s.table 5 = tableOf diceLibrary

theorem library_start (limits : Limits) : Library (State.start limits) where
  size := Nat.le_refl 8
  globals := globals_start limits
  textMethods := rfl
  text := rfl
  dice := rfl

theorem table_push {s t : State} {new : Table} (h : t.tables = s.tables.push new) {id : Nat}
    (hid : id < s.tables.size) : t.table id = s.table id := by
  unfold State.table
  rw [h, Array.getElem?_push_lt hid, ← Array.getElem?_eq_getElem hid]

theorem table_push_self {t : State} {tables : Array Table} {new : Table}
    (h : t.tables = tables.push new) : t.table tables.size = new := by
  rw [State.table, h, Array.getElem?_push_size, Option.getD_some]

/-- The library is in the first eight tables. -/
theorem Library.of_tables {s t : State} (h : Library s) (hsize : s.tables.size ≤ t.tables.size)
    (htable : ∀ id < 8, t.table id = s.table id) : Library t := by
  refine ⟨h.size.trans hsize, ?_, ?_, ?_, ?_⟩
  · rw [htable _ (by decide), h.globals]
  · rw [htable _ (by decide), h.textMethods]
  · rw [htable _ (by decide), h.text]
  · rw [htable _ (by decide), h.dice]

theorem Library.push {s t : State} (h : Library s) {new : Table}
    (htables : t.tables = s.tables.push new) : Library t := by
  refine h.of_tables ?_ (fun id hid => table_push htables (Nat.lt_of_lt_of_le hid h.size))
  rw [htables, Array.size_push]
  exact Nat.le_succ _

section Library
variable {s : State} (h : Library s)
include h

theorem Library.globalValue (name : String) :
    s.globalValue name = (KeyTable.find? globalEntries.reverse name).getD .nil := by
  rw [State.globalValue, h.globals, getText_tableOf]

/-- A text has the functions of the text library as methods. -/
theorem Library.index_gsub (text : Bytes) :
    s.index State.chainLimit (.str text) (.ofString "gsub") = .found (.builtin .stringGsub) := by
  have hmethods : s.metamethod (.str text) "__index" = .table 2 := by
    show (s.table State.textMethods).getText "__index" = _
    rw [h.textMethods, getText_tableOf]
    rfl
  have hfound : s.index 1999 (.table 2) (.ofString "gsub") = .found (.builtin .stringGsub) :=
    index_tableOf h.text rfl
  unfold State.chainLimit State.index
  dsimp only
  rw [hmethods]
  exact hfound

theorem Library.index_getGroupData :
    s.index State.chainLimit (.table 5) (.ofString "getGroupData") =
      .found (.builtin (.readData .group)) :=
  index_tableOf h.dice rfl

theorem Library.plain : (s.table State.textMethods).getText "__tostring" = .nil := by
  rw [h.textMethods, getText_tableOf]
  rfl

end Library

/-! ## The message -/

/-- A context without a character, outside a game, with no manuals. -/
structure PlainContext (c : Context) : Prop where
  character : c.character = none
  game : c.game = none
  rules : c.rules = []
  teammates : c.teammates = []

/-- A text that may be missing, as an entry. -/
def optionalEntry (name : String) (text : Option String) : List (String × Value) :=
  text.toList.map (fun t => (name, .ofString t))

/-- The entries of the message of a plain context, with its three tables. -/
def messageEntries (c : Context) (game rules mates : Nat) : List (String × Value) :=
  [("suffix", .ofString c.tail), ("uid", .ofString c.user), ("gid", .ofString c.group),
    ("private", .bool c.isPrivate), ("platform", .ofString c.platform)] ++
  optionalEntry "username" c.username ++ optionalEntry "card" c.cardText ++
  [("game", .table game), ("pluginRules", .table rules),
    ("getPlayerCard", .builtin (.playerCard mates))]

/-- The state in which a script is called. -/
def State.calling (s : State) (name : String) (c : Context) : State :=
  { s with
    call := some ⟨name, c.storage, c.rules⟩
    counting := s.limits.instructions != 0
    instructions := 0 }

/-- The state with the tables of such a message. -/
def State.withMessage (s : State) (c : Context) : State :=
  { s with
    tables := (((s.tables.push {}).push {}).push {}).push (tableOf
      (messageEntries c s.tables.size (s.tables.size + 1) (s.tables.size + 2))) }

theorem message_plain {c : Context} (h : PlainContext c) (s : State) :
    ∃ held, message s c = .ok ({ s.withMessage c with held := held }, s.tables.size + 3) := by
  obtain ⟨hcharacter, hgame, hrules, hteammates⟩ := h
  unfold message State.withMessage messageEntries optionalEntry tableOf
  simp only [hcharacter, hgame, hrules, hteammates, List.map_nil, ofJson, ofFields,
    Option.getD_none, State.allocate, cardTables, bind, Except.bind, pure, Except.pure,
    Array.size_push]
  cases c.username <;> cases c.cardText <;>
    simp only [Option.toList, List.map_nil, List.map_cons, List.append_nil, List.cons_append,
      List.nil_append, List.foldl_cons, List.foldl_nil]
  all_goals exact ⟨_, rfl⟩

section Message
variable {s t : State} {c : Context} {name : String}

theorem library_withMessage (h : Library s) (htables : t.tables = (s.withMessage c).tables) :
    Library t := by
  have hone : Library { s with tables := s.tables.push {} } := h.push rfl
  have htwo : Library { s with tables := (s.tables.push {}).push {} } := hone.push rfl
  have hthree : Library { s with tables := ((s.tables.push {}).push {}).push {} } := htwo.push rfl
  exact hthree.push htables

theorem table_message (htables : t.tables = (s.withMessage c).tables) :
    t.table (s.tables.size + 3) =
      tableOf (messageEntries c s.tables.size (s.tables.size + 1) (s.tables.size + 2)) := by
  have hsize : (((s.tables.push {}).push {}).push {}).size = s.tables.size + 3 := by
    simp only [Array.size_push]
  rw [← hsize]
  exact table_push_self htables

theorem table_game (htables : t.tables = (s.withMessage c).tables) :
    t.table s.tables.size = {} := by
  simp only [State.table, htables, State.withMessage, Array.getElem?_push, Array.size_push]
  rw [if_neg (by omega), if_neg (by omega), if_neg (by omega), if_true, Option.getD_some]

theorem index_message (htables : t.tables = (s.withMessage c).tables) {v : Value}
    (hfind : (KeyTable.find? (messageEntries c s.tables.size (s.tables.size + 1)
      (s.tables.size + 2)).reverse name).getD .nil = v) :
    t.index State.chainLimit (.table (s.tables.size + 3)) (.ofString name) = .found v :=
  index_tableOf (table_message htables) hfind

/-- The fields of the message that a bare script reads. -/
theorem find?_message (c : Context) (game rules mates : Nat) :
    ∀ entry ∈ [("gid", .ofString c.group), ("uid", .ofString c.user),
      ("card", optionalText c.cardText), ("char", .nil), ("game", Value.table game)],
      (KeyTable.find? (messageEntries c game rules mates).reverse entry.1).getD .nil = entry.2 := by
  simp only [List.forall_mem_cons]
  unfold messageEntries optionalEntry
  cases c.username <;> cases c.cardText <;>
    exact ⟨rfl, rfl, rfl, rfl, rfl, fun _ hnone => nomatch hnone⟩

theorem noPlayers_message (htables : t.tables = (s.withMessage c).tables) :
    NoPlayers t (.table (s.tables.size + 3)) := by
  have hgame := table_game htables
  exact ⟨.table s.tables.size, index_message htables (find?_message c _ _ _ ("game", _) (by simp)),
    Or.inr ⟨.nil, index_plain (by rw [hgame, get_empty]) (by rw [hgame]), rfl⟩⟩

/-- What the epilogue finds in the message of a plain context. -/
def plainOutlook (h : Library s) (htables : t.tables = (s.withMessage c).tables)
    (hcall : t.call = some ⟨name, c.storage, c.rules⟩) {stored : Option String}
    (hstored : c.storage.get .group c.group (Card.textKey c.user) = stored.map .str) :
    Outlook t where
  message := .table (s.tables.size + 3)
  group := c.group
  user := c.user
  stored := stored
  noted := c.cardText
  named := none
  library := .table 5
  type_eq := (library_withMessage h htables).globalValue "type"
  tostring_eq := (library_withMessage h htables).globalValue "tostring"
  dice_eq := (library_withMessage h htables).globalValue "dice"
  library_value := rfl
  reader_eq := (library_withMessage h htables).index_getGroupData
  gsub_eq := (library_withMessage h htables).index_gsub
  plain := (library_withMessage h htables).plain
  group_eq := index_message htables (find?_message c _ _ _ ("gid", .ofString c.group) (by simp))
  user_eq := index_message htables (find?_message c _ _ _ ("uid", .ofString c.user) (by simp))
  noted_eq := index_message htables (find?_message c _ _ _ ("card", optionalText c.cardText) (by simp))
  character_eq := ⟨.nil, index_message htables (find?_message c _ _ _ ("char", _) (by simp)),
    Or.inl ⟨rfl, rfl⟩⟩
  data_eq := ⟨_, hcall, hstored⟩

end Message

/-! ## A body that returns a text -/

theorem answers_quoted {s : State} {site : Site} (hdepth : site.depth < depthLimit)
    (text : String) (fid : Nat) (slots : List Nat) (chunk : String) :
    Answers 3 s s (.function fid ⟨0, false, [.result [quoted text]]⟩ slots chunk) [] site false
      [.ofString text] :=
  fun _ => leads_enter hdepth rfl (leads_result rfl (collects_quoted text collects_nil) site)

/-- A bare script that returns a text gets to its epilogue, outside a game and without limits. -/
theorem exists_steps_quoted {t : State} {msg : Value} (hnone : NoPlayers t msg)
    (hmemory : t.limits.memory = 0) (hcounting : t.counting = false) (text : String)
    (line fid : Nat) (chunk : String) :
    ∃ last env, t.Alike last ∧ Returned last env msg ∧ last.limits = t.limits ∧
      last.counting = false ∧ ∃ count ≤ 50, Steps count
        ⟨t, .apply (.function fid (bareFunction [.result [quoted text]] line) [] chunk) [msg] {}
          false, []⟩
        ⟨last, .give [.ofString text], [.locals 1 (epilogue line) env, .activation {}]⟩ := by
  have hreturned := inSight_atBody t msg [] chunk
  have hsame : t.Alike (t.atBody msg [] chunk).1 :=
    ⟨(alike_withFunctions _ _ _).1.tables, (alike_withFunctions _ _ _).1.call⟩
  generalize hat : t.atBody msg [] chunk = at_ at *
  obtain ⟨u, env⟩ := at_
  have hbody : Answers 3 { u with functions := u.functions + 1 }
      { u with functions := u.functions + 1 }
      (.function u.functions ⟨0, false, [.result [quoted text]]⟩ env.slots env.chunk) []
      (callSite (.group (.function 0 false [.result [quoted text]])) line env) false
      [.ofString text] := answers_quoted (Nat.lt_of_succ_lt hreturned.depth) text _ _ _
  obtain ⟨count, hcount, hleads⟩ : ∃ count ≤ 3 + 40, Leads count
      ⟨t, .apply (.function fid (bareFunction [.result [quoted text]] line) [] chunk) [msg] {}
        false, []⟩
      ⟨{ u with functions := u.functions + 1 }, .give [.ofString text],
        [.locals 1 (epilogue line) env, .activation {}]⟩ := by
    have hleads := @exists_leads_body t 3 msg [] [.result [quoted text]] line fid [] chunk
    rw [hat] at hleads
    exact hleads hnone hbody
  obtain ⟨held, instructions, hsteps⟩ :=
    exists_steps_of_leads hleads hmemory hcounting t.held t.instructions
  refine ⟨({ u with functions := u.functions + 1 } : State).counted held instructions, env, ?_, ?_,
    ?_, ?_, count, by omega, hsteps⟩
  · exact ⟨hsame.tables, hsame.call⟩
  · exact ⟨hreturned.reader, hreturned.message, hreturned.depth⟩
  · exact hleads.onward.limits
  · exact hleads.onward.counting.trans hcounting

end DiceHost.Engine
