import DiceHost.Card.Actions
import DiceHost.Proofs.Engine.Globals
import DiceHost.Proofs.Engine.Replace

/-! # The epilogue of a bare script

A bare script runs as the body of a function. What follows the body replaces two placeholders in the
text it returned, one pass for each. The course of these lines is told here from the point where
the body has returned a text to the point where the function returns.
-/
namespace DiceHost.Engine
open DiceHost.Text

/-! ## The code -/

def globalNamed (name : String) : Expr := .global name.toUTF8

def quoted (text : String) : Expr := .str text.toUTF8

/-- A field of a variable. -/
def field (i : Nat) (key : String) (line : Nat) : Expr :=
  .index (.slot i "msg" false) (quoted key) line

/-- A function of the host. -/
def hostFunction (name : String) (line : Nat) : Expr :=
  .index (globalNamed "dice") (quoted name) line

/-- A helper that reads the value of an id and a key. -/
def reader (name id : String) (line : Nat) : Function where
  params := 2
  variadic := false
  body := [.result [.call (hostFunction name line) [.slot 1 id false, .slot 0 "key" false] line]]

/-- The helper that reads the data of a group. -/
def groupReader : Function := reader "getGroupData" "gid" 27

/-- The card text: from the data of the group, or from the message. -/
def cardText (line : Nat) : Expr :=
  .either (.call (.slot 4 "getGroupData" false)
      [field 9 "gid" line, .concat [quoted "card#", field 9 "uid" line] line] line)
    (field 9 "card" line)

/-- The name of the character in the message. -/
def characterName (line : Nat) : Expr :=
  .either (.both (field 10 "char" line) (.index (field 10 "char" line) (quoted "__Name") line))
    (quoted "")

/-- A variable is neither nil nor empty. -/
def isFilled (name : String) (line : Nat) : Expr :=
  .both (.equal (.slot 0 name false) .nil false line)
    (.equal (.slot 0 name false) (quoted "") false line)

/-- The text of the innermost variable, as a function. -/
def textFunction (name : String) (line : Nat) : Function where
  params := 0
  variadic := false
  body := [.result [.call (globalNamed "tostring") [.slot 0 name true] line]]

/-- The placeholders of a name are replaced by the innermost variable. -/
def fill (name : String) (i line : Nat) : Stat :=
  .assign [.slot i "__result" false]
    [.invoke (.slot i "__result" false) "gsub".toUTF8
      [quoted (markText name), .function 0 false (textFunction name line).body] line line] line

/-- What follows the body of a bare script that ends on a line. -/
def epilogue (line : Nat) : List Stat :=
  [.cond (.equal (.call (globalNamed "type") [.slot 0 "__result" false] (line + 2))
      (quoted "string") true (line + 2))
    [.locals 1 [cardText (line + 3)],
      .cond (isFilled "card" (line + 4)) [fill "card" 1 (line + 5)] [],
      .locals 1 [characterName (line + 7)],
      fill "pc" 2 (line + 8)]
    [],
  .result [.slot 0 "__result" false]]

/-! ## Variables -/

/-- A variable in sight, kept apart from one other, holds a value. -/
def Shows (s : State) (env : Env) (other i : Nat) (v : Value) : Prop :=
  ∃ id, env.slots[i]? = some id ∧ id ≠ other ∧ s.cells[id]? = some v

variable {s t : State} {env : Env} {other i : Nat} {v w : Value}

theorem atom?_slot {id : Nat} (hslot : env.slots[i]? = some id) (hcell : s.cells[id]? = some v)
    (name : String) (captured : Bool) : atom? s env (.slot i name captured) = some v := by
  simp only [atom?, hslot, Option.map_some, Option.getD_some, State.cell, hcell]

theorem Shows.atom? (h : Shows s env other i v) (name : String) (captured : Bool) :
    atom? s env (.slot i name captured) = some v := by
  obtain ⟨id, hslot, -, hcell⟩ := h
  exact atom?_slot hslot hcell name captured

/-- Variables that were there before are still there, with their values. -/
def Grown (s t : State) : Prop := ∀ (id : Nat) (v : Value), s.cells[id]? = some v → t.cells[id]? = some v

theorem grown_newCell (s : State) (v : Value) : Grown s (s.newCell v).1 := by
  intro id w hw
  have hlt : id < s.cells.size := (Array.getElem?_eq_some_iff.mp hw).1
  show (s.cells.push v)[id]? = some w
  rw [Array.getElem?_push_lt hlt]
  rwa [Array.getElem?_eq_getElem hlt] at hw

theorem Grown.trans {u : State} (h : Grown s t) (h' : Grown t u) : Grown s u :=
  fun id v hv => h' id v (h id v hv)

theorem Shows.grown (h : Shows s env other i v) (hgrown : Grown s t) : Shows t env other i v := by
  obtain ⟨id, hslot, hne, hcell⟩ := h
  exact ⟨id, hslot, hne, hgrown id v hcell⟩

theorem Shows.newCell (h : Shows s env other i v) (w : Value) :
    Shows (s.newCell w).1 (env.with s) other (i + 1) v := by
  obtain ⟨id, hslot, hne, hcell⟩ := h
  exact ⟨id, hslot, hne, grown_newCell s w id v hcell⟩

theorem shows_newCell {u : Value} (hother : s.cells[other]? = some u) :
    Shows (s.newCell w).1 (env.with s) other 0 w := by
  have hlt : other < s.cells.size := (Array.getElem?_eq_some_iff.mp hother).1
  exact ⟨s.cells.size, rfl, Nat.ne_of_gt hlt, Array.getElem?_push_size⟩

theorem Shows.setCell (h : Shows s env other i v) (w : Value) :
    Shows (s.setCell other w) env other i v := by
  obtain ⟨id, hslot, hne, hcell⟩ := h
  refine ⟨id, hslot, hne, ?_⟩
  show (s.cells.setIfInBounds other w)[id]? = some v
  rw [Array.getElem?_setIfInBounds_ne (Ne.symm hne), hcell]

/-! ## What the epilogue finds -/

/-- The value of a text that may be missing. -/
def optionalText (text : Option String) : Value := (text.map Value.ofString).getD .nil

/-- What the epilogue finds in the heap and in the data of the call: the library as it was made,
the fields of the message, and the card text of the group. -/
structure Outlook (s : State) where
  message : Value
  group : String
  user : String
  /-- the card text in the data of the group -/
  stored : Option String
  /-- the card text in the message -/
  noted : Option String
  /-- the name of the character in the message -/
  named : Option String
  library : Value
  type_eq : s.globalValue "type" = .builtin .type
  tostring_eq : s.globalValue "tostring" = .builtin .tostring
  dice_eq : s.globalValue "dice" = library
  library_value : Table.isNil library = false
  reader_eq : s.index State.chainLimit library (.ofString "getGroupData") =
    .found (.builtin (.readData .group))
  gsub_eq : ∀ text, s.index State.chainLimit (.str text) (.ofString "gsub") =
    .found (.builtin .stringGsub)
  plain : (s.table State.textMethods).getText "__tostring" = .nil
  group_eq : s.index State.chainLimit message (.ofString "gid") = .found (.ofString group)
  user_eq : s.index State.chainLimit message (.ofString "uid") = .found (.ofString user)
  noted_eq : s.index State.chainLimit message (.ofString "card") = .found (optionalText noted)
  character_eq : ∃ character, s.index State.chainLimit message (.ofString "char") =
    .found character ∧
      ((character.truthy = false ∧ named = none) ∨ (character.truthy = true ∧
        s.index State.chainLimit character (.ofString "__Name") = .found (optionalText named)))
  data_eq : ∃ call, s.call = some call ∧
    call.storage.get .group group (Card.textKey user) = stored.map .str

/-- The card text that is put in. -/
def Outlook.card (o : Outlook s) : Option String := o.stored <|> o.noted

/-- The name that is put in. -/
def Outlook.pc (o : Outlook s) : String := o.named.getD ""

/-- The states have the same tables and belong to the same call. -/
structure State.Alike (s t : State) : Prop where
  tables : t.tables = s.tables
  call : t.call = s.call

theorem State.Alike.globalValue (h : s.Alike t) (name : String) :
    t.globalValue name = s.globalValue name := by
  unfold State.globalValue State.table
  rw [h.tables]

theorem State.Alike.index (h : s.Alike t) (object key : Value) :
    t.index State.chainLimit object key = s.index State.chainLimit object key :=
  index_congr h.tables _ object key

/-- What is found in a state is found in one like it. -/
def Outlook.alike (o : Outlook s) (h : s.Alike t) : Outlook t where
  message := o.message
  group := o.group
  user := o.user
  stored := o.stored
  noted := o.noted
  named := o.named
  library := o.library
  type_eq := (h.globalValue _).trans o.type_eq
  tostring_eq := (h.globalValue _).trans o.tostring_eq
  dice_eq := (h.globalValue _).trans o.dice_eq
  library_value := o.library_value
  reader_eq := (h.index _ _).trans o.reader_eq
  gsub_eq text := (h.index _ _).trans (o.gsub_eq text)
  plain := by
    have htable : t.table State.textMethods = s.table State.textMethods := by
      unfold State.table
      rw [h.tables]
    rw [htable, o.plain]
  group_eq := (h.index _ _).trans o.group_eq
  user_eq := (h.index _ _).trans o.user_eq
  noted_eq := (h.index _ _).trans o.noted_eq
  character_eq := by
    simp only [h.index]
    exact o.character_eq
  data_eq := by
    rw [h.call]
    exact o.data_eq

/-! ## Functions of the library -/

theorem answers_type (text : String) (site : Site) (tail : Bool) :
    Answers 1 s s (.builtin .type) [.ofString text] site tail [.ofString "string"] :=
  fun _ => .one (fun held instructions => ⟨held, instructions, rfl⟩) ⟨id, rfl, rfl⟩

theorem answers_tostring (o : Outlook s) (text : String) (site : Site) (tail : Bool) :
    Answers 1 s s (.builtin .tostring) [.ofString text] site tail [.ofString text] := by
  intro k
  refine .one (fun held instructions => ⟨held + (text.toUTF8.size + 25), instructions, ?_⟩)
    ⟨id, rfl, rfl⟩
  have hplain : (s.counted held instructions).metamethod (.ofString text) "__tostring" = .nil :=
    o.plain
  simp only [step, Next.counted, apply, callBuiltin, hplain]
  rfl

theorem hostArg_eq (args : List Value) (i : Nat) {text : String}
    (h : Library.arg? args i = some (.ofString text)) : Library.hostArg args i = .ok text := by
  have htext : hostText (.ofString text) = .ok text := by
    simp only [hostText, Value.ofString, Value.coerceBytes?, ofBytes?_toUTF8]
  simp only [Library.hostArg, h, Option.getD_some, htext]

theorem readData_eq (o : Outlook s) (held instructions : Nat) : ∃ held',
    Library.readData (s.counted held instructions) .group
      [.ofString o.group, .ofString (Card.textKey o.user)] =
        .ok (s.counted held' instructions, [optionalText o.stored]) := by
  obtain ⟨call, hcall, hdata⟩ := o.data_eq
  have hgroup := hostArg_eq [.ofString o.group, .ofString (Card.textKey o.user)] 1 rfl
  have hkey := hostArg_eq [.ofString o.group, .ofString (Card.textKey o.user)] 2 rfl
  have hof : Library.callOf (s.counted held instructions) = .ok call := by
    simp only [Library.callOf, State.counted, hcall]
  simp only [Library.readData, hgroup, hkey, hof, bind, Except.bind, hdata]
  cases o.stored with
  | none => exact ⟨held, rfl⟩
  | some text => exact ⟨held + (text.toUTF8.size + 25), rfl⟩

theorem answers_readData (o : Outlook s) (site : Site) (tail : Bool) :
    Answers 1 s s (.builtin (.readData .group))
      [.ofString o.group, .ofString (Card.textKey o.user)] site tail [optionalText o.stored] := by
  intro k
  refine .one (fun held instructions => ?_) ⟨id, rfl, rfl⟩
  obtain ⟨held', hread⟩ := readData_eq o held instructions
  refine ⟨held', instructions, ?_⟩
  simp only [step, Next.counted, apply, callBuiltin, Library.compute, hread]

/-! ## Functions of the script -/

theorem collects_globals {name : String} (hvalue : s.globalValue name = v)
    (hnil : Table.isNil v = false) {count : Nat} {es : List Expr} {vs : List Value}
    (hs : Collects count s t env es vs) :
    Collects count s t env (globalNamed name :: es) (v :: vs) := by
  subst hvalue
  exact collects_atom (atom?_global hnil) hs

theorem collects_quoted (text : String) {count : Nat} {es : List Expr} {vs : List Value}
    (hs : Collects count s t env es vs) :
    Collects count s t env (quoted text :: es) (.ofString text :: vs) :=
  collects_atom rfl hs

/-- The function that is handed to a replacement answers the text of its variable. -/
theorem answers_textFunction (o : Outlook s) {fid id line : Nat} {slots : List Nat}
    {chunk name text : String} (hslot : slots[0]? = some id)
    (hcell : s.cells[id]? = some (.ofString text)) {site : Site} (hdepth : site.depth < depthLimit)
    (args : List Value) :
    Answers 6 s s (.function fid (textFunction name line) slots chunk) args site false
      [.ofString text] := by
  have hoperands : Collects 0 s s ⟨slots, [], chunk, site.depth + 1⟩
      [globalNamed "tostring", .slot 0 name true] [.builtin .tostring, .ofString text] :=
    collects_globals o.tostring_eq rfl (collects_atom (atom?_slot hslot hcell name true)
      collects_nil)
  have hcall (k : List Frame) : Leads 3
      ⟨s, .eval (.call (globalNamed "tostring") [.slot 0 name true] line)
        ⟨slots, [], chunk, site.depth + 1⟩ true, k⟩ ⟨s, .give [.ofString text], k⟩ :=
    leads_call hoperands (answers_tostring o text _ _) k
  have hdeclare : s.declare 0 args slots = (s, slots) := rfl
  exact answers_return_call rfl hdepth hdeclare hcall

/-- The helper answers the card text of the group. -/
theorem answers_groupReader (o : Outlook s) (fid : Nat) (slots : List Nat) (chunk : String)
    (site : Site) (hdepth : site.depth < depthLimit) :
    ∃ t, s.Alike t ∧ Grown s t ∧
      Answers 9 s t (.function fid groupReader slots chunk)
        [.ofString o.group, .ofString (Card.textKey o.user)] site false
        [optionalText o.stored] := by
  generalize hu : (s.newCell (.ofString o.group)).1 = u
  generalize ht : (u.newCell (.ofString (Card.textKey o.user))).1 = t
  have halike : s.Alike t := by
    subst hu ht
    exact ⟨rfl, rfl⟩
  have hgrown : Grown u t := ht ▸ grown_newCell u _
  have hgroup : t.cells[s.cells.size]? = some (.ofString o.group) := by
    refine hgrown _ _ ?_
    subst hu
    exact Array.getElem?_push_size
  have hkey : t.cells[u.cells.size]? = some (.ofString (Card.textKey o.user)) := by
    subst ht
    exact Array.getElem?_push_size
  refine ⟨t, halike, (hu ▸ grown_newCell s _ : Grown s u).trans hgrown, ?_⟩
  have hdeclare : s.declare 2 [.ofString o.group, .ofString (Card.textKey o.user)] slots =
      (t, u.cells.size :: s.cells.size :: slots) := by
    subst hu ht
    rfl
  generalize henv :
    (⟨u.cells.size :: s.cells.size :: slots, [], chunk, site.depth + 1⟩ : Env) = env
  have hcallee : Gives 2 t t env (.index (globalNamed "dice") (quoted "getGroupData") 27)
      [.builtin (.readData .group)] :=
    gives_index (collects_globals (o.alike halike).dice_eq o.library_value
      (collects_quoted _ collects_nil)) (o.alike halike).reader_eq
  have hargs : Collects 0 t t env [.slot 1 "gid" false, .slot 0 "key" false]
      [.ofString o.group, .ofString (Card.textKey o.user)] := by
    subst henv
    exact collects_atom (atom?_slot (i := 1) rfl hgroup "gid" false)
      (collects_atom (atom?_slot (i := 0) rfl hkey "key" false) collects_nil)
  have hcall (k : List Frame) : Leads 6
      ⟨t, .eval (.call (.index (globalNamed "dice") (quoted "getGroupData") 27)
        [.slot 1 "gid" false, .slot 0 "key" false] 27) env true, k⟩
      ⟨t, .give [optionalText o.stored], k⟩ :=
    leads_call (collects_cons rfl hcallee hargs) (answers_readData (o.alike halike) _ true) k
  subst henv
  exact answers_return_call rfl hdepth hdeclare hcall

/-! ## The scene -/

/-- The epilogue is under way: the result is a text, and so many variables were declared after
it. -/
structure Scene (start : State) (message : Value) (s : State) (env : Env)
    (place declared : Nat) (text : String) : Prop where
  alike : start.Alike s
  slot : env.slots[declared]? = some place
  held : s.cells[place]? = some (.ofString text)
  reader : ∃ fid slots chunk,
    Shows s env place (declared + 4) (.function fid groupReader slots chunk)
  message : Shows s env place (declared + 9) message
  depth : env.depth + 1 < depthLimit

section Scene
variable {start : State} {o : Outlook start} {place declared : Nat} {text : String}

theorem Scene.newCell (h : Scene start o.message s env place declared text) (v : Value) :
    Scene start o.message (s.newCell v).1 (env.with s) place (declared + 1) text where
  alike := ⟨h.alike.tables, h.alike.call⟩
  slot := h.slot
  held := grown_newCell s v _ _ h.held
  reader := by
    obtain ⟨fid, slots, chunk, hreader⟩ := h.reader
    refine ⟨fid, slots, chunk, ?_⟩
    rw [Nat.add_right_comm]
    exact hreader.newCell v
  message := by
    rw [Nat.add_right_comm]
    exact h.message.newCell v
  depth := h.depth

theorem Scene.grown (h : Scene start o.message s env place declared text) (halike : s.Alike t)
    (hgrown : Grown s t) : Scene start o.message t env place declared text where
  alike := ⟨halike.tables.trans h.alike.tables, halike.call.trans h.alike.call⟩
  slot := h.slot
  held := hgrown _ _ h.held
  reader := by
    obtain ⟨fid, slots, chunk, hreader⟩ := h.reader
    exact ⟨fid, slots, chunk, hreader.grown hgrown⟩
  message := h.message.grown hgrown
  depth := h.depth

theorem Scene.setCell (h : Scene start o.message s env place declared text) (next : String) :
    Scene start o.message (s.setCell place (.ofString next)) env place declared next where
  alike := ⟨h.alike.tables, h.alike.call⟩
  slot := h.slot
  held := by
    have hlt : place < s.cells.size := (Array.getElem?_eq_some_iff.mp h.held).1
    exact Array.getElem?_setIfInBounds_self_of_lt hlt
  reader := by
    obtain ⟨fid, slots, chunk, hreader⟩ := h.reader
    exact ⟨fid, slots, chunk, hreader.setCell _⟩
  message := h.message.setCell _
  depth := h.depth

theorem Scene.gives_field (h : Scene start o.message s env place declared text) {key : String}
    {v : Value} (hfound : start.index State.chainLimit o.message (.ofString key) = .found v)
    (line : Nat) : Gives 2 s s env (field (declared + 9) key line) [v] :=
  gives_index
    (collects_atom (h.message.atom? "msg" false) (collects_quoted key collects_nil))
    ((h.alike.index _ _).trans hfound)

/-- The card text comes from the data of the group, or else from the message. -/
theorem Scene.exists_gives_cardText (h : Scene start o.message s env place 0 text) (line : Nat) :
    ∃ t, Scene start o.message t env place 0 text ∧
      ∃ count ≤ 24, Gives count s t env (cardText line) [optionalText o.card] := by
  obtain ⟨fid, slots, chunk, hreader⟩ := h.reader
  obtain ⟨t, halike, hgrown, hanswers⟩ := answers_groupReader (o.alike h.alike) fid slots chunk
    (callSite (.slot 4 "getGroupData" false) line env) (Nat.lt_of_succ_lt h.depth)
  have hconcat : Gives 5 s s env (.concat [quoted "card#", field 9 "uid" line] line)
      [.ofString (Card.textKey o.user)] := by
    have hjoined : Value.ofString (Card.textKey o.user) =
        .str ("card#".toUTF8 ++ o.user.toUTF8) :=
      congrArg Value.str String.toByteArray_append
    rw [hjoined]
    exact gives_concat (collects_quoted "card#"
      (collects_last rfl (h.gives_field o.user_eq line)))
  have hoperands : Collects 9 s s env [.slot 4 "getGroupData" false, field 9 "gid" line,
      .concat [quoted "card#", field 9 "uid" line] line]
      [.function fid groupReader slots chunk, .ofString o.group,
        .ofString (Card.textKey o.user)] :=
    collects_atom (hreader.atom? "getGroupData" false)
      (collects_cons rfl (h.gives_field o.group_eq line) (collects_last rfl hconcat))
  have hcall : Gives 20 s t env (.call (.slot 4 "getGroupData" false)
      [field 9 "gid" line, .concat [quoted "card#", field 9 "uid" line] line] line)
      [optionalText o.stored] := gives_call hoperands hanswers
  have hscene := h.grown halike hgrown
  refine ⟨t, hscene, ?_⟩
  cases hstored : o.stored with
  | some stored =>
    refine ⟨22, by decide, ?_⟩
    rw [hstored] at hcall
    have hcard : o.card = some stored := by
      rw [Outlook.card, hstored]
      rfl
    rw [hcard]
    exact gives_first false hcall rfl
  | none =>
    refine ⟨24, by decide, ?_⟩
    rw [hstored] at hcall
    have hcard : o.card = o.noted := by
      rw [Outlook.card, hstored]
      rfl
    rw [hcard]
    exact gives_second false hcall rfl (hscene.gives_field o.noted_eq line)

/-- There is a text, and it is not empty. -/
def hasText : Option String → Bool
  | some text => text != ""
  | none => false

theorem same_text (a b : String) : (Value.ofString a).same (.ofString b) = (a == b) := by
  rw [Bool.eq_iff_iff, beq_iff_eq]
  show (a.toUTF8.data == b.toUTF8.data) = true ↔ a = b
  rw [beq_iff_eq, ← ByteArray.ext_iff]
  exact String.toByteArray_inj

theorem exists_gives_isFilled {card : Option String}
    (h : Shows s env other 0 (optionalText card)) (name : String) (line : Nat) :
    ∃ count ≤ 6, Gives count s s env (isFilled name line) [.bool (hasText card)] := by
  have hnil : Gives 2 s s env (.equal (.slot 0 name false) .nil false line)
      [.bool (card.isSome)] := by
    have hoperands : Collects 0 s s env [.slot 0 name false, single .nil]
        [optionalText card, .nil] :=
      collects_atom (h.atom? name false) (collects_atom rfl collects_nil)
    have hequal : Gives 2 s s env (.equal (.slot 0 name false) .nil false line)
        [.bool ((optionalText card).same .nil == false)] :=
      gives_equal hoperands (by cases card <;> exact trivial)
    cases card <;> exact hequal
  cases card with
  | none => exact ⟨4, by decide, gives_first true hnil rfl⟩
  | some text =>
    have hempty : Gives 2 s s env (.equal (.slot 0 name false) (quoted "") false line)
        [.bool ((optionalText (some text)).same (.ofString "") == false)] :=
      gives_equal (collects_atom (h.atom? name false) (collects_quoted "" collects_nil)) trivial
    refine ⟨6, by decide, gives_second true hnil rfl ?_⟩
    have hvalue : ((optionalText (some text)).same (.ofString "") == false) =
        hasText (some text) := by
      rw [hasText, bne, ← same_text]
      exact beq_false _
    rw [← hvalue]
    exact hempty

/-- The name of the character, or else nothing. -/
theorem Scene.exists_gives_characterName (h : Scene start o.message s env place 1 text)
    (line : Nat) :
    ∃ count ≤ 12, Gives count s s env (characterName line) [.ofString o.pc] := by
  obtain ⟨character, hcharacter, hcases⟩ := o.character_eq
  have hfield := h.gives_field hcharacter line
  have hquoted : Gives 1 s s env (single (quoted "")) [.ofString ""] := gives_atom rfl
  rcases hcases with ⟨hfalse, hnamed⟩ | ⟨htrue, hname⟩
  · have hpc : o.pc = "" := by rw [Outlook.pc, hnamed]; rfl
    rw [hpc]
    exact ⟨7, by decide, gives_second false (gives_first true hfield hfalse) hfalse hquoted⟩
  · have hindex : Gives 5 s s env (.index (field 10 "char" line) (quoted "__Name") line)
        [optionalText o.named] :=
      gives_index (collects_cons rfl hfield
        (collects_quoted "__Name" collects_nil)) ((h.alike.index _ _).trans hname)
    have hboth : Gives 9 s s env
        (.both (field 10 "char" line) (.index (field 10 "char" line) (quoted "__Name") line))
        [optionalText o.named] :=
      gives_second true hfield htrue hindex
    cases hnamed : o.named with
    | none =>
      have hpc : o.pc = "" := by rw [Outlook.pc, hnamed]; rfl
      rw [hnamed] at hboth
      rw [hpc]
      exact ⟨12, by decide, gives_second false hboth rfl hquoted⟩
    | some name =>
      have hpc : o.pc = name := by rw [Outlook.pc, hnamed]; rfl
      rw [hnamed] at hboth
      rw [hpc]
      exact ⟨11, by decide, gives_first false hboth rfl⟩

/-- A text with the placeholders of a name replaced. -/
def replaced (name value text : String) : String :=
  String.ofList (filled [(name, value)] text.toList)

theorem Scene.exists_fill (h : Scene start o.message s env place declared text)
    {name value : String} (hname : Literal name) (hvalue : Shows s env place 0 (.ofString value))
    (line : Nat) :
    ∃ t, Scene start o.message t env place declared (replaced name value text) ∧
      ∃ count ≤ 7 * text.toList.length + 11, ∀ {rest k count' last},
        Leads count' ⟨t, .exec rest env, k⟩ last →
          Leads (count' + count) ⟨s, .exec (fill name declared line :: rest) env, k⟩ last := by
  obtain ⟨id, hslot, -, hcell⟩ := hvalue
  generalize ht : ({ s with functions := s.functions + 1 } : State) = t
  have halike : s.Alike t := by
    subst ht
    exact ⟨rfl, rfl⟩
  have hscene : Scene start o.message t env place declared text := by
    refine h.grown halike (fun _ _ hfound => ?_)
    subst ht
    exact hfound
  have hvalue : t.cells[id]? = some (.ofString value) := by
    subst ht
    exact hcell
  have hfunction (matched : Bytes) : Answers 6 t t
      (.function s.functions (textFunction name line) env.slots env.chunk) [.str matched]
      (inner (methodSite "gsub".toUTF8 line env)) false [.ofString value] :=
    answers_textFunction (o.alike hscene.alike) hslot hvalue h.depth [.str matched]
  obtain ⟨count, number, hcount, hgsub⟩ := exists_answers_gsub hname text hfunction
  have hobject : Gives 1 s s env (.slot declared "__result" false) [.ofString text] :=
    gives_atom (atom?_slot h.slot h.held "__result" false)
  have hargs : Collects 2 s t env
      [quoted (markText name), .function 0 false (textFunction name line).body]
      [.ofString (markText name),
        .function s.functions (textFunction name line) env.slots env.chunk] := by
    subst ht
    exact collects_quoted _ (collects_last rfl (gives_function 0 false _))
  have hinvoke := gives_invoke line hobject
    ((h.alike.index _ _).trans (o.gsub_eq text.toUTF8)) hargs hgsub
  refine ⟨t.setCell place (.ofString (replaced name value text)), hscene.setCell _,
    2 + (1 + (count + 1 + 2 + 1 + 1 + 1)) + 1, ?_, fun hrest => ?_⟩
  · omega
  · rw [← Nat.add_assoc, ← Nat.add_assoc]
    exact leads_assign (collects_last rfl hinvoke) h.slot hrest

end Scene

/-! ## The whole epilogue -/

/-- The first pass, which is left out without a card text. -/
def withCard (card : Option String) (text : String) : String :=
  if hasText card then replaced "card" (card.getD "") text else text

/-- Both passes. -/
def inserted (card : Option String) (pc text : String) : String :=
  replaced "pc" pc (withCard card text)

theorem literal_card : Literal "card" := by
  unfold Literal
  decide +kernel

theorem literal_pc : Literal "pc" := by
  unfold Literal
  decide +kernel

/-- A variable in sight holds a value. -/
def InSight (s : State) (env : Env) (i : Nat) (v : Value) : Prop :=
  ∃ id, env.slots[i]? = some id ∧ s.cells[id]? = some v

theorem InSight.newCell (h : InSight s env i v) (w : Value) :
    Shows (s.newCell w).1 (env.with s) s.cells.size (i + 1) v := by
  obtain ⟨id, hslot, hcell⟩ := h
  exact ⟨id, hslot, Nat.ne_of_lt (Array.getElem?_eq_some_iff.mp hcell).1,
    grown_newCell s w id v hcell⟩

theorem gives_isText {start : State} {o : Outlook start} {place : Nat} {text : String}
    (h : Scene start o.message s env place 0 text) (line : Nat) :
    Gives 6 s s env (.equal (.call (globalNamed "type") [.slot 0 "__result" false] line)
      (quoted "string") true line) [.bool true] := by
  have hcall : Gives 3 s s env (.call (globalNamed "type") [.slot 0 "__result" false] line)
      [.ofString "string"] :=
    gives_call (collects_globals (o.alike h.alike).type_eq rfl
      (collects_atom (atom?_slot h.slot h.held "__result" false) collects_nil))
      (answers_type text _ _)
  have hoperands : Collects 4 s s env [.call (globalNamed "type") [.slot 0 "__result" false] line,
      single (quoted "string")] [.ofString "string", .ofString "string"] :=
    collects_cons rfl hcall (collects_quoted "string" collects_nil)
  have hequal : Gives 6 s s env (.equal (.call (globalNamed "type") [.slot 0 "__result" false]
      line) (quoted "string") true line)
      [.bool ((Value.ofString "string").same (.ofString "string") == true)] :=
    gives_equal hoperands trivial
  rw [same_text] at hequal
  exact hequal

section Passes
variable {start : State} {o : Outlook start} {place : Nat} {text : String} {k : List Frame}

theorem Scene.exists_withCard (h : Scene start o.message s env place 1 text)
    (hcard : Shows s env place 0 (optionalText o.card)) (line line' : Nat) :
    ∃ t, Scene start o.message t env place 1 (withCard o.card text) ∧
      ∃ count ≤ 7 * text.toList.length + 21, ∀ {next rest count' last},
        Leads count' ⟨t, .exec (next :: rest) env, k⟩ last →
          Leads (count' + count) ⟨s, .exec (.cond (isFilled "card" line)
            [fill "card" 1 line'] [] :: next :: rest) env, k⟩ last := by
  obtain ⟨count, hcount, htest⟩ := exists_gives_isFilled hcard "card" line
  cases hhas : hasText o.card with
  | false =>
    have hsame : withCard o.card text = text := by simp [withCard, hhas]
    rw [hsame]
    rw [hhas] at htest
    refine ⟨s, h, 2 + 1 + count + 1, by omega, fun hrest => ?_⟩
    rw [← Nat.add_assoc, ← Nat.add_assoc, ← Nat.add_assoc]
    exact leads_cond htest rfl (leads_end hrest)
  | true =>
    obtain ⟨card, heq⟩ : ∃ card, o.card = some card := by
      cases hcase : o.card with
      | none =>
        rw [hcase] at hhas
        cases hhas
      | some card => exact ⟨card, rfl⟩
    have hreplaced : withCard o.card text = replaced "card" card text := by
      rw [withCard, hhas, heq]
      rfl
    rw [hhas] at htest
    rw [heq] at hcard
    obtain ⟨t, hscene, count', hcount', hfill⟩ := h.exists_fill literal_card hcard line'
    rw [hreplaced]
    refine ⟨t, hscene, 2 + count' + 1 + count + 1, by omega, fun hrest => ?_⟩
    rw [← Nat.add_assoc, ← Nat.add_assoc, ← Nat.add_assoc, ← Nat.add_assoc]
    exact leads_cond htest rfl (hfill (leads_end hrest))

/-- The variable of the result, the helpers, and the message are in sight when the body has
returned. -/
structure Returned (s : State) (env : Env) (message : Value) : Prop where
  reader : ∃ fid slots chunk, InSight s env 3 (.function fid groupReader slots chunk)
  message : InSight s env 8 message
  depth : env.depth + 1 < depthLimit

theorem Returned.scene (h : Returned start env o.message) (text : String) :
    Scene start o.message (start.newCell (.ofString text)).1 (env.with start) start.cells.size 0
      text where
  alike := ⟨rfl, rfl⟩
  slot := rfl
  held := Array.getElem?_push_size
  reader := by
    obtain ⟨fid, slots, chunk, hreader⟩ := h.reader
    exact ⟨fid, slots, chunk, hreader.newCell _⟩
  message := h.message.newCell _
  depth := h.depth

/-- The steps that the epilogue takes at most. -/
def epilogueSteps (card : Option String) (text : String) : Nat :=
  7 * text.toList.length + 7 * (withCard card text).toList.length + 100

/-- Where the body has returned a text, the function returns this text after both passes. -/
theorem exists_leads_epilogue (h : Returned start env o.message) {vs : List Value}
    (htext : head vs = .ofString text) (line : Nat) (site : Site) :
    ∃ t, start.Alike t ∧ ∃ count ≤ epilogueSteps o.card text,
      Leads count ⟨start, .give vs, .locals 1 (epilogue line) env :: .activation site :: k⟩
        ⟨t, .give [.ofString (inserted o.card o.pc text)], k⟩ := by
  have hstart := h.scene text
  -- the card text, and its pass
  obtain ⟨s₁, hscene₁, count₁, hcount₁, hgives₁⟩ := hstart.exists_gives_cardText (line + 3)
  obtain ⟨s₂, hscene₂, count₂, hcount₂, hpass₂⟩ :=
    (hscene₁.newCell (optionalText o.card)).exists_withCard (k :=
      .seq [.result [.slot 0 "__result" false]] (env.with start) :: .activation site :: k)
      (shows_newCell hscene₁.held) (line + 4) (line + 5)
  -- the name of the character, and its pass
  obtain ⟨count₃, hcount₃, hgives₃⟩ := hscene₂.exists_gives_characterName (line + 7)
  obtain ⟨s₄, hscene₄, count₄, hcount₄, hpass₄⟩ := (hscene₂.newCell (.ofString o.pc)).exists_fill
    literal_pc (shows_newCell hscene₂.held) (line + 8)
  -- put together from the end
  have hresult : Leads 2 ⟨s₄, .exec [.result [.slot 0 "__result" false]] (env.with start),
      .activation site :: k⟩ ⟨s₄, .give [.ofString (inserted o.card o.pc text)], k⟩ :=
    leads_result rfl (collects_atom (atom?_slot rfl hscene₄.held "__result" false) collects_nil)
      site
  have hname := leads_local (collects_last rfl hgives₃) (hpass₄ (leads_end hresult))
  have hcard := leads_local (collects_last rfl hgives₁) (hpass₂ hname)
  have hepilogue : Leads _ ⟨(start.newCell (.ofString text)).1,
      .exec (epilogue line) (env.with start), .activation site :: k⟩
      ⟨s₄, .give [.ofString (inserted o.card o.pc text)], k⟩ :=
    leads_cond (gives_isText hstart (line + 2)) rfl hcard
  rw [← htext] at hepilogue
  refine ⟨s₄, hscene₄.alike, _, ?_, hepilogue.after (fun _ _ => rfl) ⟨id, rfl, rfl⟩⟩
  unfold epilogueSteps
  omega

end Passes

end DiceHost.Engine
