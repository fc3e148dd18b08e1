import DiceHost.Proofs.Engine.Compare
import DiceHost.Proofs.Engine.Epilogue

/-! # Bare scripts

A bare script becomes the body of a function inside the function that is called: the helpers come
before it, and the epilogue after it. What this code is, what function compiling it gives, and how
a call of it gets to its body and back.
-/
namespace DiceHost.Engine
open DiceHost.Text DiceHost.Script

/-! ## The code -/

/-- A helper that writes the text of a value for an id and a key. -/
def writer (name id : String) (line : Nat) : Function where
  params := 3
  variadic := false
  body := [.expression (.call (hostFunction name line)
    [.slot 2 id false, .slot 1 "key" false,
      .call (globalNamed "tostring") [.slot 0 "value" false] line] line)]

/-- The helper that looks a rule up, in the manuals of the message and then in the host. -/
def ruleReader : Function where
  params := 1
  variadic := false
  body := [
    .cond (.index (.slot 2 "msg" true) (quoted "pluginRules") 3)
      [.eachLoop 2 [.call (globalNamed "pairs")
          [.index (.slot 2 "msg" true) (quoted "pluginRules") 4] 4]
        [.cond (.index (.slot 0 "manual" false) (.slot 2 "query" false) 5)
          [.result [.index (.slot 0 "manual" false) (.slot 2 "query" false) 6]] []] 4] [],
    .locals 1 [.call (hostFunction "queryRule" 10) [.slot 0 "query" false] 10],
    .cond (.both (.slot 0 "result" false) (.index (.slot 0 "result" false) (quoted "success") 11))
      [.result [.index (.slot 0 "result" false) (quoted "content") 12]] [],
    .result [.nil]]

/-- The helper that gives the card of a player. -/
def cardReader : Function where
  params := 2
  variadic := false
  body := [
    .cond (.index (.slot 10 "msg" true) (quoted "getPlayerCard") 37)
      [.result [.call (.index (.slot 10 "msg" true) (quoted "getPlayerCard") 38)
        [.slot 1 "uid" false, .slot 0 "gid" false] 38]] [],
    .result [.nil]]

def helpers : List Function :=
  [ruleReader, writer "setGroupData" "gid" 18, reader "getGroupData" "gid" 21,
    writer "setGroupData" "gid" 24, groupReader, writer "setUserData" "uid" 30,
    reader "getUserData" "uid" 33, cardReader]

def Function.declared (f : Function) : Stat := .localFunction f.params f.variadic f.body

/-- The game of the message, and its players. -/
def gameOf (line : Nat) : Expr := field 8 "game" line

def playersOf (line : Nat) : Expr := .index (gameOf line) (quoted "pls") line

/-- The players get a method that gives them back. -/
def sharePlayers : Stat :=
  .cond (.both (gameOf 43) (playersOf 43))
    [.expression (.call (globalNamed "setmetatable") [playersOf 44,
      .table [.keyed (quoted "__index") (.table [.keyed (quoted "totable")
        (.function 1 false [.result [.slot 0 "self" false]]) 48] 49) 49] 50] 44)] []

/-- The code around a body that ends on a line. -/
def bareBody (body : List Stat) (line : Nat) : List Stat :=
  helpers.map Function.declared ++ sharePlayers ::
    .locals 1 [.call (.group (.function 0 false body)) [] line] :: epilogue line

/-- The chunk of a bare script, which gives the function to be called. -/
def bareChunk (body : List Stat) (line : Nat) : List Stat :=
  [.result [.function 1 false (bareBody body line)]]

/-! ## Compiling -/

section Compile
variable {s : State} {name source : String} {body : List Stat} {line : Nat}

/-- The function that a bare script comes to. -/
def bareFunction (body : List Stat) (line : Nat) : Function := ⟨1, false, bareBody body line⟩

/-- The chunk of a bare script makes one function and returns it. -/
theorem leads_bareChunk (s : State) (fid : Nat) (chunk : String) (body : List Stat) (line : Nat) :
    Leads 5 ⟨s, .apply (.function fid ⟨0, true, bareChunk body line⟩ [] chunk) [] {} false, []⟩
      ⟨{ s with functions := s.functions + 1 },
        .give [.function s.functions (bareFunction body line) [] chunk], []⟩ := by
  have hdepth : ({} : Site).depth < depthLimit := by decide
  have hdeclare : s.declare 0 [] [] = (s, []) := rfl
  exact leads_enter hdepth hdeclare (leads_result rfl (collects_last rfl
    (gives_function 1 false (bareBody body line))) _)

/-- The state after the chunk of a bare script has run. -/
def State.afterChunk (s : State) : State :=
  { s with functions := s.functions + 2, call := none, counting := false }

/-- A bare script is accepted, unless the memory limit stops its chunk. -/
theorem compile_bare (hname : name.toList.contains '\x00' = false)
    (hchunk : Parse.chunk (wrap source) = some (bareChunk body line)) :
    (∃ held instructions, compile s name source .lua = (s.afterChunk.counted held instructions,
      .ok (.function (s.functions + 1) (bareFunction body line) [] (chunkName name)))) ∨
    s.limits.memory ≠ 0 ∧ ∃ t failure, compile s name source .lua = (t, .error failure) := by
  generalize hstart : ({ s with functions := s.functions + 1, call := none, counting := false } :
    State) = start
  have hfuel : 5 < enoughSteps := by decide
  have hrun := run_of_leads (leads_bareChunk start s.functions (chunkName name) body line) rfl hfuel
    (s.held + 40 + 8 * ([] : List Nat).length) s.instructions
  subst hstart
  unfold compile
  rw [if_neg (by decide), hname, if_neg (by decide), hchunk]
  rcases hrun with ⟨held, instructions, hdone⟩ | ⟨t, fault, hstops, hfailed⟩
  · refine Or.inl ⟨held, instructions, ?_⟩
    dsimp only [Next.counted, State.counted] at hdone
    dsimp only [makeFunction, State.callValue]
    rw [hdone]
    rfl
  · refine Or.inr ⟨?_, ?_⟩
    · rcases hstops with ⟨hmemory, -⟩ | ⟨hcounting, -⟩
      · exact hmemory
      · cases hcounting
    · dsimp only [Next.counted, State.counted] at hfailed
      dsimp only [makeFunction, State.callValue]
      rw [hfailed]
      exact ⟨_, _, rfl⟩

end Compile

/-! ## Running -/

section Run
variable {s : State} {env : Env} {i count : Nat} {v message : Value} {k : List Frame}

/-- Where functions have been declared one after the other. -/
def State.withFunctions : List Function → State → Env → State × Env
  | [], s, env => (s, env)
  | f :: fs, s, env => withFunctions fs (s.withFunction f env) (env.with s)

theorem leads_declared (fs : List Function) {rest : List Stat} {last : Next}
    (hrest : Leads count ⟨(State.withFunctions fs s env).1,
      .exec rest (State.withFunctions fs s env).2, k⟩ last) :
    Leads (count + fs.length) ⟨s, .exec (fs.map Function.declared ++ rest) env, k⟩ last := by
  induction fs generalizing s env with
  | nil => exact hrest
  | cons f fs ih => exact leads_localFunction (ih hrest)

theorem InSight.withFunction (h : InSight s env i v) (f : Function) :
    InSight (s.withFunction f env) (env.with s) (i + 1) v := by
  obtain ⟨id, hslot, hcell⟩ := h
  have hlt : id < s.cells.size := (Array.getElem?_eq_some_iff.mp hcell).1
  refine ⟨id, hslot, ?_⟩
  show (s.cells.push _)[id]? = some v
  rw [Array.getElem?_push_lt hlt, ← Array.getElem?_eq_getElem hlt, hcell]

theorem InSight.withFunctions (h : InSight s env i v) (fs : List Function) :
    InSight (State.withFunctions fs s env).1 (State.withFunctions fs s env).2 (i + fs.length) v := by
  induction fs generalizing s env i with
  | nil => exact h
  | cons f fs ih =>
    have hfs := ih (h.withFunction f)
    rwa [Nat.add_assoc, Nat.add_comm 1] at hfs

theorem inSight_withFunction (s : State) (env : Env) (f : Function) :
    InSight (s.withFunction f env) (env.with s) 0
      (.function s.functions f (env.with s).slots env.chunk) :=
  ⟨s.cells.size, rfl, Array.getElem?_push_size⟩

theorem alike_withFunctions (fs : List Function) (s : State) (env : Env) :
    s.Alike (State.withFunctions fs s env).1 ∧
      (State.withFunctions fs s env).2.chunk = env.chunk ∧
      (State.withFunctions fs s env).2.depth = env.depth := by
  induction fs generalizing s env with
  | nil => exact ⟨⟨rfl, rfl⟩, rfl, rfl⟩
  | cons f fs ih =>
    obtain ⟨halike, hchunk, hdepth⟩ := ih (s.withFunction f env) (env.with s)
    exact ⟨⟨halike.tables, halike.call⟩, hchunk, hdepth⟩

/-- Where a called bare script has declared its helpers. -/
def State.atBody (s : State) (message : Value) (slots : List Nat) (chunk : String) : State × Env :=
  State.withFunctions helpers (s.newCell message).1 ⟨s.cells.size :: slots, [], chunk, 1⟩

theorem inSight_atBody (s : State) (message : Value) (slots : List Nat) (chunk : String) :
    Returned (s.atBody message slots chunk).1 (s.atBody message slots chunk).2 message where
  reader := by
    have hreader (s : State) (env : Env) := (inSight_withFunction s env groupReader).withFunctions
      [writer "setUserData" "uid" 30, reader "getUserData" "uid" 33, cardReader]
    exact ⟨_, _, _, hreader _ _⟩
  message := by
    have hmessage : InSight (s.newCell message).1 ⟨s.cells.size :: slots, [], chunk, 1⟩ 0 message :=
      ⟨s.cells.size, rfl, Array.getElem?_push_size⟩
    exact hmessage.withFunctions helpers
  depth := by
    rw [State.atBody, (alike_withFunctions _ _ _).2.2]
    show 1 + 1 < depthLimit
    decide

/-- There are no players in the game of a message. -/
def NoPlayers (s : State) (message : Value) : Prop :=
  ∃ game, s.index State.chainLimit message (.ofString "game") = .found game ∧
    (game.truthy = false ∨ ∃ players,
      s.index State.chainLimit game (.ofString "pls") = .found players ∧ players.truthy = false)

theorem InSight.atom? (h : InSight s env i v) (name : String) (captured : Bool) :
    atom? s env (.slot i name captured) = some v := by
  obtain ⟨id, hslot, hcell⟩ := h
  exact atom?_slot hslot hcell name captured

theorem exists_gives_players (hmessage : InSight s env 8 message) (h : NoPlayers s message) :
    ∃ count ≤ 9, ∃ v, v.truthy = false ∧
      Gives count s s env (.both (gameOf 43) (playersOf 43)) [v] := by
  obtain ⟨game, hgame, hplayers⟩ := h
  have hfield : Gives 2 s s env (gameOf 43) [game] :=
    gives_index (collects_atom (hmessage.atom? "msg" false)
      (collects_quoted "game" collects_nil)) hgame
  cases hvalue : game.truthy with
  | false => exact ⟨4, by decide, game, hvalue, gives_first true hfield hvalue⟩
  | true =>
    obtain ⟨players, hfound, hfalse⟩ := hplayers.resolve_left (by simp [hvalue])
    have hindex : Gives 5 s s env (playersOf 43) [players] :=
      gives_index (collects_cons rfl hfield (collects_quoted "pls" collects_nil)) hfound
    exact ⟨9, by decide, players, hfalse, gives_second true hfield hvalue hindex⟩

/-- A call of a bare script gets to its body, where its message has no players, and goes on with
the epilogue when the body has answered. -/
theorem exists_leads_body {body : List Stat} {line fid : Nat} {slots : List Nat} {chunk : String}
    {u : State} {vs : List Value} (hplayers : NoPlayers s message)
    (hbody : Answers count
      { (s.atBody message slots chunk).1 with
        functions := (s.atBody message slots chunk).1.functions + 1 } u
      (.function (s.atBody message slots chunk).1.functions ⟨0, false, body⟩
        (s.atBody message slots chunk).2.slots (s.atBody message slots chunk).2.chunk) []
      (callSite (.group (.function 0 false body)) line (s.atBody message slots chunk).2) false vs) :
    ∃ total ≤ count + 40, Leads total
      ⟨s, .apply (.function fid (bareFunction body line) slots chunk) [message] {} false, k⟩
      ⟨u, .give vs, .locals 1 (epilogue line) (s.atBody message slots chunk).2 ::
        .activation {} :: k⟩ := by
  have hreturned := inSight_atBody s message slots chunk
  have halike : s.Alike (s.atBody message slots chunk).1 :=
    ⟨(alike_withFunctions _ _ _).1.tables, (alike_withFunctions _ _ _).1.call⟩
  have hnone : NoPlayers (s.atBody message slots chunk).1 message := by
    unfold NoPlayers
    simp only [halike.index]
    exact hplayers
  obtain ⟨tests, htests, v, hfalse, htest⟩ := exists_gives_players hreturned.message hnone
  have hcall : Gives (count + 1 + 4 + 1) (s.atBody message slots chunk).1 u
      (s.atBody message slots chunk).2 (.call (.group (.function 0 false body)) [] line) vs := by
    have hfunction : Gives 1 (s.atBody message slots chunk).1 _ (s.atBody message slots chunk).2 _ _ :=
      gives_function 0 false body
    exact leads_call_of (.group (.function 0 false body)) []
      (collects_last rfl (gives_group hfunction)) hbody
  have hvalues : Leads _ ⟨(s.atBody message slots chunk).1,
      .exec (.locals 1 [.call (.group (.function 0 false body)) [] line] :: epilogue line)
        (s.atBody message slots chunk).2, .activation {} :: k⟩
      ⟨u, .give vs, .locals 1 (epilogue line) (s.atBody message slots chunk).2 ::
        .activation {} :: k⟩ := leads_values (collects_last rfl hcall)
  have hchosen : (if (head [v]).truthy then [.expression (.call (globalNamed "setmetatable")
      [playersOf 44, .table [.keyed (quoted "__index") (.table [.keyed (quoted "totable")
        (.function 1 false [.result [.slot 0 "self" false]]) 48] 49) 49] 50] 44)] else []) =
      ([] : List Stat) := if_neg (by simp [head, hfalse])
  have hshare := leads_cond htest hchosen (leads_end hvalues)
  have hdepth : ({} : Site).depth < depthLimit := by decide
  have hdeclare : s.declare 1 [message] slots = ((s.newCell message).1, s.cells.size :: slots) :=
    rfl
  have hstart : Leads _ ⟨s, .apply (.function fid (bareFunction body line) slots chunk) [message] {}
      false, k⟩ _ := leads_enter hdepth hdeclare (leads_declared helpers hshare)
  refine ⟨_, ?_, hstart⟩
  have hhelpers : helpers.length = 8 := rfl
  omega

end Run

/-! ## A bare script -/

/-- The chunk of a text that is given by its characters. -/
def chunkOf (cs : List Char) : Option (List Stat) :=
  match (Token.scanOnto (cs.length + 1) [] ⟨cs, 1⟩).map List.reverse with
  | none => none
  | some tokens =>
    let read : Parse.Parser (List Stat) := do
      let body ← Parse.block {} (16 * tokens.length + 64)
      match (← Parse.peek).token with
      | .finish => return body
      | _ => failure
    (read ⟨tokens, 1⟩).map (·.1)

theorem chunk_eq (text : String) : Parse.chunk text = chunkOf text.toList := rfl

theorem chunk_bare : Parse.chunk (wrap "return \"{card}\"") =
    some (bareChunk [.result [quoted "{card}"]] 55) := by
  have hform : isFunctionForm "return \"{card}\"" = false := by decide +kernel
  apply eq_of_agreeAll
  rw [chunk_eq, wrap, hform, if_neg (by decide), String.toList_append, String.toList_append, header,
    footer, Text.join, Text.join, String.toList_intercalate, String.toList_intercalate]
  simp only [List.map_cons, List.map_nil]
  repeat rw [String.toList_ofList]
  decide +kernel

end DiceHost.Engine
