import DiceHost.Engine.Run
import DiceHost.Invoke
import DiceHost.Store.Memory
import DiceHost.Proofs.Engine.Plain
import DiceHost.Proofs.Placeholders

/-! # The reply of a bare script

A text that a bare script returns goes through three passes on its way to the reply: the epilogue
puts in the card text and then the name of the character, and the host puts in all that a reply may
name. The later passes look at what the earlier ones have put in. Only where nothing that is put in
has an opening brace, and where no placeholder stands right after the beginning of another one, do
they come to the one pass that the reply of any other script gets.
-/
namespace DiceHost.Engine
open DiceHost.Text DiceHost.Script

/-! ## Three passes and one -/

/-- Nothing that the epilogue puts in can be taken for a placeholder, and the host would put in
the same. -/
structure OnePass (values : Placeholders) (card : Option String) (pc text : String) : Prop where
  card : ∀ found, card = some found → found ≠ "" → '{' ∉ found.toList ∧ values.card = found
  pc : '{' ∉ pc.toList ∧ values.pc = pc
  apart : ∀ name ∈ ["card", "pc"], Apart (values.table.map Prod.fst) name text.toList

theorem render_inserted {values : Placeholders} {card : Option String} {pc text : String}
    (h : OnePass values card pc text) :
    render values (inserted card pc text) = render values text := by
  have htable := braceless_table values
  obtain ⟨hpcBrace, hpcValue⟩ := h.pc
  have hcardApart := h.apart "card" (by decide)
  have hpcApart := h.apart "pc" (by decide)
  have hpcFind : KeyTable.find? values.table "pc" = some pc := hpcValue ▸ rfl
  have hfirst : filled values.table (withCard card text).toList =
      filled values.table text.toList ∧
        Apart (values.table.map Prod.fst) "pc" (withCard card text).toList := by
    unfold withCard
    split
    · next hhas =>
      obtain ⟨found, rfl, hne⟩ : ∃ found, card = some found ∧ found ≠ "" := by
        cases card with
        | none => cases hhas
        | some found => exact ⟨found, rfl, bne_iff_ne.mp hhas⟩
      obtain ⟨hbrace, hvalue⟩ := h.card found rfl hne
      have hfind : KeyTable.find? values.table "card" = some found := hvalue ▸ rfl
      rw [Option.getD_some, replaced, String.toList_ofList]
      exact ⟨filled_filled htable (by decide) hfind hbrace hcardApart,
        hcardApart.filled (List.mem_of_getElem? (i := 5) rfl) hbrace hpcApart⟩
    · exact ⟨rfl, hpcApart⟩
  rw [render_eq_filled, render_eq_filled, inserted, replaced, String.toList_ofList,
    filled_filled htable (by decide) hpcFind hpcBrace hfirst.2, hfirst.1]

/-! ## The call -/

/-- A call of a bare script gets to the point where the body has returned, after so many steps. -/
structure BodyReturns (s : State) (name : String) (source : String) (code : Value)
    (c : Context) (line : Nat) (last : State) (env : Env) (vs : List Value) (count : Nat) : Prop where
  bare : ∃ body fid chunk, Parse.chunk (wrap source) = some (bareChunk body line) ∧
    code = .function fid (bareFunction body line) [] chunk
  reached : ∃ s' msg, message { s with call := none, counting := false } c = .ok (s', msg) ∧
    Steps count ⟨s'.calling name c, .apply code [.table msg] {} false, []⟩
      ⟨last, .give vs, [.locals 1 (epilogue line) env, .activation {}]⟩

/-- What a call is refused with when a limit stops it. -/
inductive Stopped (s : State) : Failure → Prop
  | memory : s.limits.memory ≠ 0 → Stopped s (.interpreter "memory error: not enough memory")
  | instructions : s.counting = true →
    Stopped s (.interpreter "runtime error: Script exceeded instruction limit")

theorem stopped_of_stops {s : State} {fault : Fault} (h : s.Stops fault) (t : State) :
    Stopped s (.interpreter (faultText t fault)) := by
  rcases h with ⟨hmemory, rfl⟩ | ⟨hcounting, rfl⟩
  · exact .memory hmemory
  · exact .instructions hcounting

/-- The storage of the call that a state belongs to. -/
def State.storage (s : State) (c : Context) : Storage := (s.call.map (·.storage)).getD c.storage

/-- What a call gives when its script is over. -/
def outcomeText (s : State) : Except Fault (List Value) → Except Failure String
  | .ok vs => .ok (resultText (head vs))
  | .error fault => .error (.interpreter (faultText s fault))

section Call
variable {s last : State} {name source text : String} {code : Value} {c : Context} {line count : Nat}
  {env : Env} {vs : List Value}

/-- A bare script whose body returns a text returns the text after both passes, unless a limit
stops it. -/
theorem call_of_body (h : BodyReturns s name source code c line last env vs count) (o : Outlook last)
    (hreturned : Returned last env o.message) (htext : head vs = .ofString text)
    (hfuel : count + epilogueSteps o.card text < enoughSteps) :
    (∃ s', call s name code c =
      (s', last.storage c, .ok (inserted o.card o.pc text))) ∨
    ∃ s' storage failure, Stopped last failure ∧
      call s name code c = (s', storage, .error failure) := by
  obtain ⟨s', msg, hmessage, hsteps⟩ := h.reached
  obtain ⟨t, halike, cost, hcost, hleads⟩ :=
    exists_leads_epilogue (k := []) hreturned htext line {}
  obtain ⟨left, hleft⟩ := Nat.exists_eq_add_of_lt (Nat.lt_of_le_of_lt (Nat.le_add_right _ _) hfuel)
  have hrun : (s'.calling name c).callValue code [.table msg] =
      run (left + 1) ⟨last, .give vs, [.locals 1 (epilogue line) env, .activation {}]⟩ := by
    rw [State.callValue, hleft, Nat.add_assoc, Nat.add_comm, run_of_steps hsteps]
  have hcost' : cost < left + 1 := by omega
  have hcall (t : State) (outcome : Except Fault (List Value))
      (houtcome : (s'.calling name c).callValue code [.table msg] = (t, outcome)) :
      call s name code c = ({ t with call := none, counting := false }, t.storage c,
        outcomeText { t with call := none, counting := false } outcome) := by
    unfold State.calling at houtcome
    unfold call
    rw [hmessage]
    dsimp only
    rw [houtcome]
    cases outcome <;> rfl
  rcases run_of_leads hleads rfl hcost' last.held last.instructions with
    ⟨held, instructions, hdone⟩ | ⟨t', fault, hstops, hfailed⟩
  · have hstorage : (t.counted held instructions).storage c = last.storage c := by
      show (t.call.map _).getD _ = _
      rw [halike.call]
      rfl
    have hresult : resultText (.ofString (inserted o.card o.pc text)) =
        inserted o.card o.pc text := ofBytesReplacing_toUTF8 _
    have hdone' := hcall _ _ (hrun.trans hdone)
    rw [hstorage, outcomeText, head, List.headD_cons, hresult] at hdone'
    exact Or.inl ⟨_, hdone'⟩
  · exact Or.inr ⟨_, _, _, stopped_of_stops hstops _, hcall _ _ (hrun.trans hfailed)⟩

/-- Outside a game, without a character and without limits, a bare script that returns a text gets
to its epilogue, which finds the card text of the group and no name. -/
theorem exists_bodyReturns (hplain : PlainContext c) (hlibrary : Library s)
    (hlimits : s.limits = ⟨0, 0⟩)
    (hchunk : Parse.chunk (wrap source) = some (bareChunk [.result [quoted text]] line))
    {stored : Option String}
    (hstored : c.storage.get .group c.group (Card.textKey c.user) = stored.map .str)
    (fid : Nat) (chunk : String) :
    ∃ last env, ∃ count ≤ 50,
      BodyReturns s name source (.function fid (bareFunction [.result [quoted text]] line) [] chunk)
        c line last env [.ofString text] count ∧
      (∀ failure, ¬ Stopped last failure) ∧ last.storage c = c.storage ∧
      ∃ o : Outlook last, Returned last env o.message ∧
        o.card = (stored <|> c.cardText) ∧ o.pc = "" := by
  generalize hidle : ({ s with call := none, counting := false } : State) = idle
  have hidleLibrary : Library idle := by
    subst hidle
    exact ⟨hlibrary.size, hlibrary.globals, hlibrary.textMethods, hlibrary.text, hlibrary.dice⟩
  have hidleLimits : idle.limits = ⟨0, 0⟩ := by rw [← hidle]; exact hlimits
  obtain ⟨held, hmessage⟩ := message_plain hplain idle
  generalize hstart : ({ idle.withMessage c with held := held } : State).calling name c = start
  have htables : start.tables = (idle.withMessage c).tables := by rw [← hstart]; rfl
  have hcall : start.call = some ⟨name, c.storage, c.rules⟩ := by rw [← hstart]; rfl
  have hstartLimits : start.limits = ⟨0, 0⟩ := by rw [← hstart]; exact hidleLimits
  have hcounting : start.counting = false := by
    rw [← hstart]
    show (idle.limits.instructions != 0) = false
    rw [hidleLimits]
    rfl
  obtain ⟨last, env, halike, hreturned, hlastLimits, hlastCounting, count, hcount, hsteps⟩ :=
    exists_steps_quoted (noPlayers_message htables) (by rw [hstartLimits]) hcounting text line fid
      chunk
  refine ⟨last, env, count, hcount, ⟨⟨_, fid, chunk, hchunk, rfl⟩, ?_⟩, ?_, ?_,
    (plainOutlook hidleLibrary htables hcall hstored).alike halike, hreturned, rfl, rfl⟩
  · refine ⟨_, _, (congrArg (message · c) hidle).trans hmessage, ?_⟩
    rw [hstart]
    exact hsteps
  · rintro failure (hmemory | hstopped)
    · exact hmemory (by rw [hlastLimits, hstartLimits])
    · rw [hlastCounting] at hstopped
      cases hstopped
  · rw [State.storage, halike.call, hcall]
    rfl

end Call

/-! ## The reply -/

section Reply
variable {σ : Type} [Store σ] (settings : ExtensionConfig) (identity : Identity)

/-- What the placeholders of a reply stand for, once the writes of a script are settled. -/
def settledValues (c : Context) (storage : Storage) (w : σ) : Placeholders :=
  placeholders settings identity c (rereadCardText c (storage.flush w).2).1

variable (rules : Manuals) (aliases : AliasTable) (tail : String) {scripts : Scripts language}
  {name text : String} {w : σ}

/-- The reply of a script that returns a text is one pass over it. -/
theorem reply_of_call {storage : Storage}
    (h : (scripts.call name (Context.build rules aliases identity tail w).1).2 =
      (storage, .ok text)) :
    (invoke settings rules aliases scripts name identity tail w).1.2 =
      render (settledValues settings identity (Context.build rules aliases identity tail w).1 storage
        (Context.build rules aliases identity tail w).2) text := by
  obtain ⟨hstorage, houtcome⟩ := Prod.mk.inj h
  have hreply : (invoke settings rules aliases scripts name identity tail w).1.2 =
      (settle settings identity (Context.build rules aliases identity tail w).1
        (scripts.call name (Context.build rules aliases identity tail w).1).2.1
        (scripts.call name (Context.build rules aliases identity tail w).1).2.2
        (Context.build rules aliases identity tail w).2).1 := rfl
  rw [hreply, hstorage, houtcome]
  rfl

section Bare
variable {script : Compiled language} {line count : Nat} {last : State} {env : Env} {vs : List Value}

/-- The reply of a bare script whose body returns a text is what one pass makes of the text with
the card text and the name put in, unless a limit stops the script. -/
theorem reply_of_body (hscript : KeyTable.find? scripts.loaded name = some script)
    (h : BodyReturns { scripts.state with scripts := scripts.codes } name script.source script.code
      (Context.build rules aliases identity tail w).1 line last env vs count)
    (o : Outlook last) (hreturned : Returned last env o.message)
    (htext : head vs = .ofString text)
    (hfuel : count + epilogueSteps o.card text < enoughSteps) :
    (invoke settings rules aliases scripts name identity tail w).1.2 =
        render (settledValues settings identity (Context.build rules aliases identity tail w).1
          (last.storage (Context.build rules aliases identity tail w).1)
          (Context.build rules aliases identity tail w).2) (inserted o.card o.pc text) ∨
      ∃ failure, Stopped last failure ∧
        (invoke settings rules aliases scripts name identity tail w).1.2 = failure.reply := by
  have hlanguage : (scripts.call name (Context.build rules aliases identity tail w).1).2 =
      (call { scripts.state with scripts := scripts.codes } name script.code
        (Context.build rules aliases identity tail w).1).2 := by
    unfold Scripts.call
    rw [hscript]
    rfl
  rcases call_of_body h o hreturned htext hfuel with
    ⟨t, hdone⟩ | ⟨t, storage, failure, hstopped, hfailed⟩
  · exact Or.inl (reply_of_call settings identity rules aliases tail (hlanguage.trans
      (congrArg Prod.snd hdone)))
  · refine Or.inr ⟨failure, hstopped, ?_⟩
    have houtcome : (scripts.call name (Context.build rules aliases identity tail w).1).2.2 =
        .error failure := by
      rw [hlanguage, hfailed]
    show (settle settings identity _ _
      (scripts.call name (Context.build rules aliases identity tail w).1).2.2 _).1 = _
    rw [houtcome]
    rfl

/-- The reply of a bare script whose body returns a text is what one pass makes of the text with
the card text and the name put in. It is what one pass makes of the text itself, and so the reply
of every other script that returns this text, where nothing that was put in can be taken for a
placeholder. -/
theorem reply_of_bare (hscript : KeyTable.find? scripts.loaded name = some script)
    (h : BodyReturns { scripts.state with scripts := scripts.codes } name script.source script.code
      (Context.build rules aliases identity tail w).1 line last env vs count)
    (o : Outlook last) (hreturned : Returned last env o.message)
    (htext : head vs = .ofString text)
    (hfuel : count + epilogueSteps o.card text < enoughSteps) :
    let looked := Context.build rules aliases identity tail w
    let values := settledValues settings identity looked.1 (last.storage looked.1) looked.2
    let reply := (invoke settings rules aliases scripts name identity tail w).1.2
    (reply = render values (inserted o.card o.pc text) ∧
      (OnePass values o.card o.pc text → reply = render values text ∧
        ∀ (others : Scripts language) (other : String),
          (others.call other looked.1).2 = (last.storage looked.1, .ok text) →
          reply = (invoke settings rules aliases others other identity tail w).1.2)) ∨
    ∃ failure, Stopped last failure ∧ reply = failure.reply := by
  intro looked values reply
  refine (reply_of_body settings identity rules aliases tail hscript h o hreturned htext hfuel).imp_left
    fun hreply => ⟨hreply, fun hpass => ?_⟩
  have hsame : reply = render values text := hreply.trans (render_inserted hpass)
  exact ⟨hsame, fun others other hother =>
    hsame.trans (reply_of_call settings identity rules aliases tail hother).symm⟩

end Bare
end Reply

/-! ## A card text -/

/-- Without limits a bare script is loaded as the first script of an engine. -/
theorem load_bare {s : State} {name source : String} {body : List Stat} {line : Nat}
    (hscripts : s.scripts = []) (hmemory : s.limits.memory = 0)
    (hname : name.toList.contains '\x00' = false)
    (hchunk : Parse.chunk (wrap source) = some (bareChunk body line)) :
    ∃ held instructions, (⟨s, []⟩ : Scripts language).load name source .lua =
      (⟨s.afterChunk.counted held instructions, [(name, ⟨source, .lua,
        .function (s.functions + 1) (bareFunction body line) [] (chunkName name)⟩)]⟩, .ok ()) := by
  rcases compile_bare hname hchunk with ⟨held, instructions, hcompile⟩ | ⟨hlimited, -⟩
  · have hidle : ({ s with scripts := [] } : State) = s := by rw [← hscripts]
    have hlanguage : language.compile s (Scripts.codes (⟨s, []⟩ : Scripts language)) name source
        .lua = compile { s with scripts := [] } name source .lua := rfl
    refine ⟨held, instructions, ?_⟩
    rw [Scripts.load, hlanguage, hidle, hcompile]
    rfl
  · exact absurd hmemory hlimited

def kai : Identity := ⟨"u1", some "Kai", "qq", some "g1", "hall"⟩

/-- A store in which the group of this member keeps a card text. -/
def keeping (text : String) : Memory := { groups := [("g1", [("card#u1", .str text)])] }

def kaiContext (text : String) : Context := (Context.build [] [] kai "" (keeping text)).1

/-- What the placeholders of a reply to this member stand for. -/
def kaiValues (text : String) : Placeholders :=
  ⟨"Kai", "u1", "g1", firstFilled [some text, some ""] "character card", ""⟩

theorem settledValues_kai (text : String) :
    settledValues {} kai (kaiContext text) (kaiContext text).storage (keeping text) =
      kaiValues text := rfl

/-- A script that returns the placeholder of the card text. -/
def showSource : String := "return \"{card}\""

def showCode (fid : Nat) : Value :=
  .function fid (bareFunction [.result [quoted "{card}"]] 55) [] (chunkName "show")

def showingScripts (state : State) (fid : Nat) : Scripts language :=
  ⟨state, [("show", ⟨showSource, .lua, showCode fid⟩)]⟩

theorem exists_showing {s : State} (hlibrary : Library s) (hscripts : s.scripts = [])
    (hlimits : s.limits = ⟨0, 0⟩) : ∃ (state : State) (fid : Nat),
      (⟨s, []⟩ : Scripts language).load "show" showSource .lua =
        (showingScripts state fid, .ok ()) ∧
      Library state ∧ state.limits = ⟨0, 0⟩ := by
  have hmemory : s.limits.memory = 0 := by rw [hlimits]
  obtain ⟨held, instructions, hload⟩ :=
    @load_bare s "show" _ _ _ hscripts hmemory (by decide) chunk_bare
  exact ⟨_, _, hload,
    ⟨hlibrary.size, hlibrary.globals, hlibrary.textMethods, hlibrary.text, hlibrary.dice⟩, hlimits⟩

/-- Without limits it gets to its epilogue, which finds the card text. -/
theorem showing_returns {state : State} {fid : Nat} (hlibrary : Library state)
    (hlimits : state.limits = ⟨0, 0⟩) (text : String) : ∃ last env, ∃ count ≤ 50,
    BodyReturns { state with scripts := (showingScripts state fid).codes } "show" showSource
      (showCode fid) (kaiContext text) 55 last env [.ofString "{card}"] count ∧
    (∀ failure, ¬ Stopped last failure) ∧
    settledValues {} kai (kaiContext text) (last.storage (kaiContext text)) (keeping text) =
      kaiValues text ∧
    ∃ o : Outlook last, Returned last env o.message ∧ o.card = some text ∧ o.pc = "" := by
  have hplain : PlainContext (kaiContext text) := ⟨rfl, rfl, rfl, rfl⟩
  obtain ⟨last, env, count, hcount, hbody, hfree, hstorage, hrest⟩ := @exists_bodyReturns
    { state with scripts := (showingScripts state fid).codes } "show" _ _ (kaiContext text) _ hplain
    ⟨hlibrary.size, hlibrary.globals, hlibrary.textMethods, hlibrary.text, hlibrary.dice⟩
    hlimits chunk_bare (some text) rfl fid (chunkName "show")
  exact ⟨last, env, count, hcount, hbody, hfree, by rw [hstorage]; rfl, hrest⟩

theorem reply_of_bare_hp : ∃ scripts,
    (start ⟨0, 0⟩).load "show" showSource .lua = (scripts, .ok ()) ∧
      (invoke {} [] [] scripts "show" kai "" (keeping "HP 9")).1.2 = "HP 9" := by
  obtain ⟨state, fid, hload, hlibrary, hlimits⟩ := exists_showing (library_start ⟨0, 0⟩) rfl rfl
  obtain ⟨last, env, count, hcount, hbody, hfree, hvalues, o, hreturned, hcard, hpc⟩ :=
    @showing_returns state fid hlibrary hlimits "HP 9"
  have hfuel : count + epilogueSteps o.card "{card}" < enoughSteps := by
    have henough : 50 + epilogueSteps (some "HP 9") "{card}" < enoughSteps := by decide +kernel
    rw [hcard]
    omega
  have hone : OnePass (kaiValues "HP 9") (some "HP 9") "" "{card}" := by
    refine ⟨fun found hfound _ => ?_, by decide +kernel, fun name _ =>
      apart_of_single (by decide +kernel)⟩
    cases hfound
    decide +kernel
  rw [← hvalues, ← hcard, ← hpc] at hone
  refine ⟨showingScripts state fid, hload, ?_⟩
  rcases @reply_of_bare Memory _ {} kai [] [] "" (showingScripts state fid) "show" "{card}"
    (keeping "HP 9") _ _ _ _ _ _ rfl hbody o hreturned rfl hfuel with
    ⟨-, hpass⟩ | ⟨failure, hstopped, -⟩
  · have hreply := (hpass hone).1
    have hrendered : render (settledValues {} kai (kaiContext "HP 9")
        (last.storage (kaiContext "HP 9")) (keeping "HP 9")) "{card}" = "HP 9" := by
      rw [hvalues]
      decide +kernel
    exact hreply.trans hrendered
  · exact absurd hstopped (hfree failure)

/-- A card text that names a placeholder: the bare script lets the later passes fill it in, and one
pass over what the body returned does not. -/
theorem card_text_rescanned : ∃ scripts,
    (start ⟨0, 0⟩).load "show" showSource .lua = (scripts, .ok ()) ∧
      (invoke {} [] [] scripts "show" kai "" (keeping "{uid}")).1.2 = "u1" ∧
      render (settledValues {} kai (kaiContext "{uid}") (kaiContext "{uid}").storage
        (keeping "{uid}")) "{card}" = "{uid}" := by
  obtain ⟨state, fid, hload, hlibrary, hlimits⟩ := exists_showing (library_start ⟨0, 0⟩) rfl rfl
  obtain ⟨last, env, count, hcount, hbody, hfree, hvalues, o, hreturned, hcard, hpc⟩ :=
    @showing_returns state fid hlibrary hlimits "{uid}"
  have hfuel : count + epilogueSteps o.card "{card}" < enoughSteps := by
    have henough : 50 + epilogueSteps (some "{uid}") "{card}" < enoughSteps := by decide +kernel
    rw [hcard]
    omega
  refine ⟨showingScripts state fid, hload, ?_, by rw [settledValues_kai]; decide +kernel⟩
  rcases @reply_of_body Memory _ {} kai [] [] "" (showingScripts state fid) "show" "{card}"
    (keeping "{uid}") _ _ _ _ _ _ rfl hbody o hreturned rfl hfuel with
    hreply | ⟨failure, hstopped, -⟩
  · have hrendered : render (settledValues {} kai (kaiContext "{uid}")
        (last.storage (kaiContext "{uid}")) (keeping "{uid}")) (inserted o.card o.pc "{card}") =
        "u1" := by
      rw [hvalues, hcard, hpc]
      decide +kernel
    exact hreply.trans hrendered
  · exact absurd hstopped (hfree failure)

end DiceHost.Engine
