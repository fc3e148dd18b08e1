import DiceHost.Context.Build
import DiceHost.Proofs.Engine.CardReading
import DiceHost.Proofs.Engine.Manuals
import DiceHost.Proofs.Engine.Plain
import DiceHost.Proofs.Plugin.RuleLookup
import DiceHost.Store.Memory

/-! # Rules in a script call

A script that asks for a rule is answered from the copy of the texts that its call began with. At
whatever point of the call it asks, the answer is the one that the registry gives for all systems.
-/
namespace DiceHost.Engine
open DiceHost.Plugin

/-! ## Configurations of a call -/

/-- The call of a script in a context comes to a configuration. -/
def CallComesTo (s : State) (name : String) (script : Value) (c : Context) (n : Next) : Prop :=
  ∃ t msg count, message { s with call := none, counting := false } c = .ok (t, msg) ∧
    Steps count ⟨t.calling name c, .apply script [.table msg] {} false, []⟩ n

section Call
variable {s : State} {name keyword text : String} {script : Value} {c : Context} {n : Next}

theorem CallComesTo.manuals? (h : CallComesTo s name script c n) :
    n.state.manuals? = some c.rules := by
  obtain ⟨t, msg, count, -, hsteps⟩ := h
  exact hsteps.manuals?

theorem CallComesTo.callOf_eq (h : CallComesTo s name script c n) :
    ∃ call, Library.callOf n.state = .ok call ∧ call.rules = c.rules := by
  obtain ⟨call, hcall, hrules⟩ := Option.map_eq_some_iff.mp h.manuals?
  exact ⟨call, by rw [Library.callOf, hcall], hrules⟩

/-! ## Answers -/

/-- The answer is that there is a rule with this text. -/
structure Found (answer : Table) (text : String) : Prop where
  success : answer.getText "success" = .bool true
  content : answer.getText "content" = .ofString text

/-- The answer is that there is no rule for the keyword. -/
structure Missing (answer : Table) (keyword : String) : Prop where
  success : answer.getText "success" = .bool false
  content : answer.getText "content" = .nil
  error : answer.getText "error" = .ofString ("rule not found: " ++ keyword)

theorem found_some (keyword text : String) :
    Found (Library.ruleAnswer keyword (some text)) text := by
  constructor <;> simp [Library.ruleAnswer, getText_setText]

theorem missing_none (keyword : String) : Missing (Library.ruleAnswer keyword none) keyword := by
  have hempty : ({} : Table).getText "content" = .nil := get_empty _
  constructor <;> simp [Library.ruleAnswer, getText_setText, hempty]

theorem found_ruleAnswer {rule : Option String} :
    Found (Library.ruleAnswer keyword rule) text ↔ rule = some text := by
  cases rule with
  | none =>
    refine ⟨fun h => ?_, fun h => nomatch h⟩
    cases h.success.symm.trans (missing_none keyword).success
  | some found =>
    constructor
    · intro h
      have hcontent := (found_some keyword found).content.symm.trans h.content
      rw [String.toByteArray_inj.mp (Value.str.inj hcontent)]
    · rintro ⟨⟩
      exact found_some keyword text

theorem missing_ruleAnswer {rule : Option String} :
    Missing (Library.ruleAnswer keyword rule) keyword ↔ rule = none := by
  cases rule with
  | none => exact ⟨fun _ => rfl, fun _ => missing_none keyword⟩
  | some found =>
    refine ⟨fun h => ?_, fun h => nomatch h⟩
    cases h.success.symm.trans (found_some keyword found).success

/-- Where a call asks for the rule of a keyword, the next step gives the answer of its context. -/
theorem CallComesTo.step_queryRule (h : CallComesTo s name script c n) {args : List Value}
    {site : Site} {tail : Bool} (hcontrol : n.control = .apply (.builtin .queryRule) args site tail)
    (hkeyword : Library.hostArg args 1 = .ok keyword) :
    ∃ t id, step n = .next ⟨t, .give [.table id], n.stack⟩ ∧
      t.table id = Library.ruleAnswer keyword (c.rules.find? keyword) := by
  obtain ⟨call, hcall, hrules⟩ := h.callOf_eq
  obtain ⟨state, control, k⟩ := n
  dsimp only at hcontrol hcall ⊢
  subst hcontrol
  have hanswer : Library.queryRule state args =
      .ok ((state.allocate (Library.ruleAnswer keyword (c.rules.find? keyword))).1,
        [.table (state.allocate (Library.ruleAnswer keyword (c.rules.find? keyword))).2]) := by
    unfold Library.queryRule
    rw [hkeyword, hcall, ← hrules]
    rfl
  refine ⟨_, _, ?_, table_allocate state _⟩
  simp only [step, apply, callBuiltin, Library.compute, hanswer]

end Call

/-! ## A script that asks -/

mutual
theorem limits_ofJson (s : State) (v : Json) : (ofJson s v).1.limits = s.limits := by
  cases v with
  | arr items => exact limits_ofItems s {} items
  | obj fields => exact limits_ofFields s {} fields
  | _ => rfl

theorem limits_ofItems (s : State) (t : Table) (items : List Json) :
    (ofItems s t items).1.limits = s.limits := by
  cases items with
  | nil => rfl
  | cons v rest => exact (limits_ofItems _ _ rest).trans (limits_ofJson s v)

theorem limits_ofFields (s : State) (t : Table) (fields : List (String × Json)) :
    (ofFields s t fields).1.limits = s.limits := by
  cases fields with
  | nil => rfl
  | cons field rest => exact (limits_ofFields _ _ rest).trans (limits_ofJson s field.2)
end

theorem Library.extends {s t : State} (h : Library s) (hst : Extends s t) : Library t :=
  h.of_tables hst.size_le (fun _ hid => hst.table (Nat.lt_of_lt_of_le hid h.size))

/-- Without cards the message is made whatever the rules and the game are. -/
theorem message_alone {c : Context} (hcharacter : c.character = none)
    (hteammates : c.teammates = []) (s : State) :
    ∃ t msg, message s c = .ok (t, msg) ∧ Extends s t ∧ t.limits = s.limits := by
  rw [message_eq, hcharacter]
  unfold messageRest
  rw [hteammates]
  generalize hrules : Json.obj (c.rules.map _) = manuals
  have hgame := extends_ofJson s (.obj (c.game.getD []))
  have hmanuals := extends_ofJson (ofJson s (.obj (c.game.getD []))).1 manuals
  have hlimits := (limits_ofJson (ofJson s (.obj (c.game.getD []))).1 manuals).trans
    (limits_ofJson s _)
  refine ⟨_, _, rfl, ?_, hlimits⟩
  exact hgame.trans (hmanuals.trans ((extends_allocate _ _).trans (extends_allocate _ _)))

/-- A script that returns what it is told about a keyword. -/
def asking (keyword : String) : Function where
  params := 0
  variadic := false
  body := [.result [.call (hostFunction "queryRule" 1) [quoted keyword] 1]]

/-- Without limits such a script comes to ask for its keyword. -/
theorem exists_asks {s : State} {c : Context} (hlibrary : Library s) (hlimits : s.limits = ⟨0, 0⟩)
    (hcharacter : c.character = none) (hteammates : c.teammates = []) (name keyword : String) :
    ∃ n site tail, CallComesTo s name (.function 0 (asking keyword) [] name) c n ∧
      n.control = .apply (.builtin .queryRule) [.ofString keyword] site tail := by
  obtain ⟨t, msg, hmessage, hext, ht⟩ :=
    message_alone hcharacter hteammates { s with call := none, counting := false }
  have hlibrary : Library (t.calling name c) := by
    have hthere : Library { s with call := none, counting := false } :=
      ⟨hlibrary.size, hlibrary.globals, hlibrary.textMethods, hlibrary.text, hlibrary.dice⟩
    have hmade := hthere.extends hext
    exact ⟨hmade.size, hmade.globals, hmade.textMethods, hmade.text, hmade.dice⟩
  have hlimits : (t.calling name c).limits = ⟨0, 0⟩ := ht.trans hlimits
  have hcounting : (t.calling name c).counting = false := by
    show ((t.calling name c).limits.instructions != 0) = false
    rw [hlimits]
    rfl
  generalize hstart : t.calling name c = start at *
  have hdice : start.globalValue "dice" = .table 5 := hlibrary.globalValue "dice"
  have hfound : start.index State.chainLimit (.table 5) (.ofString "queryRule") =
      .found (.builtin .queryRule) := index_tableOf hlibrary.dice rfl
  have hcallee (env : Env) : Gives 2 start start env (hostFunction "queryRule" 1)
      [.builtin .queryRule] :=
    gives_index (collects_globals hdice rfl (collects_quoted _ collects_nil)) hfound
  have hoperands (env : Env) : Collects 3 start start env
      (Expr.call (hostFunction "queryRule" 1) [quoted keyword] 1).operands
      [.builtin .queryRule, .ofString keyword] :=
    collects_cons rfl (hcallee env) (collects_quoted keyword collects_nil)
  -- the call is the last thing that the script does
  have hcall (env : Env) (k : List Frame) : Leads 5
      ⟨start, .eval (.call (hostFunction "queryRule" 1) [quoted keyword] 1) env true, k⟩
      ⟨start, .apply (.builtin .queryRule) [.ofString keyword]
        (callSite (hostFunction "queryRule" 1) 1 env) true, k⟩ := by
    refine leads_operate (fun _ _ _ _ => rfl) (hoperands env) ?_ (.refl rfl)
    exact ⟨fun held instructions => ⟨held, instructions + 1 + 1, rfl⟩, id, rfl, rfl⟩
  have hexec (env : Env) (k : List Frame) : Becomes (fun t => exec t (asking keyword).body env k)
      start k ⟨start, .eval (.call (hostFunction "queryRule" 1) [quoted keyword] 1) env true,
        .result :: k⟩ :=
    ⟨fun held instructions => ⟨held, instructions + 1, rfl⟩, id, rfl, rfl⟩
  have hleads := @leads_enter start start _ 0 (asking keyword) [] [] name [.table msg] {} [] _
    (by decide) rfl ((hexec _ _).leads (fun _ => rfl) id (hcall _ _))
  obtain ⟨held, instructions, hsteps⟩ :=
    exists_steps_of_leads hleads (by rw [hlimits]) hcounting start.held start.instructions
  subst hstart
  have hcomes : CallComesTo s name _ c _ := ⟨t, msg, _, hmessage, hsteps⟩
  exact ⟨_, _, _, hcomes, rfl⟩

/-! ## All ways to look a rule up -/

/-- After any history of the rules: the text that is found in all systems is the one of the first
system by name that has the keyword; the copy for scripts has the texts of the registry; and a
script is told the text that is found in all systems, or that there is none. -/
theorem rule_lookups_agree {σ : Type} [Store σ] (changes : List RuleRegistry.Change)
    (keyword : String) :
    let registry := RuleRegistry.after changes
    (∀ system text, registry.queryAny keyword = some (system, text) ↔
      registry.query system keyword = some text ∧
        ∀ earlier < system, registry.query earlier keyword = none) ∧
    (registry.queryAny keyword = none ↔ ∀ system, registry.query system keyword = none) ∧
    (∀ system text, (KeyTable.find? registry.snapshot system).bind (KeyTable.find? · keyword) =
      some text ↔ registry.query system keyword = some text) ∧
    ∀ (aliases : AliasTable) (identity : Identity) (words : String) (w : σ) (s : State)
      (name : String) (script : Value) (n : Next) (args : List Value) (site : Site) (tail : Bool),
      CallComesTo s name script
        (Context.build registry.snapshot aliases identity words w).1 n →
      n.control = .apply (.builtin .queryRule) args site tail →
      Library.hostArg args 1 = .ok keyword →
      ∃ t id, step n = .next ⟨t, .give [.table id], n.stack⟩ ∧
        (∀ text, Found (t.table id) text ↔
          ∃ system, registry.queryAny keyword = some (system, text)) ∧
        (Missing (t.table id) keyword ↔ registry.queryAny keyword = none) := by
  intro registry
  have hordered := RuleRegistry.ordered_after changes
  refine ⟨fun system text => RuleRegistry.queryAny_eq_some hordered,
    RuleRegistry.queryAny_eq_none hordered, fun system text => ?_, ?_⟩
  · rw [RuleRegistry.find?_snapshot]
  · intro aliases identity words w s name script n args site tail hcall hcontrol hkeyword
    obtain ⟨t, id, hstep, htable⟩ := hcall.step_queryRule hcontrol hkeyword
    have hrules : (Context.build registry.snapshot aliases identity words w).1.rules =
        registry.snapshot := rfl
    rw [hrules, RuleRegistry.find?_manuals] at htable
    refine ⟨t, id, hstep, fun text => ?_, ?_⟩
    · rw [htable, found_ruleAnswer, Option.map_eq_some_iff]
      constructor
      · rintro ⟨⟨system, _⟩, hfound, rfl⟩
        exact ⟨system, hfound⟩
      · rintro ⟨system, hfound⟩
        exact ⟨(system, text), hfound, rfl⟩
    · rw [htable, missing_ruleAnswer, Option.map_eq_none_iff]

/-- Two plugins write into one system, and the first one goes. -/
def overlapping : List RuleRegistry.Change :=
  [.merge "coc" "first" [("hp", "old"), ("san", "gone")], .merge "dnd" "second" [("hp", "dice")],
    .merge "coc" "second" [("hp", "new")], .remove "first"]

/-- A context with these rules. -/
def overlappingContext : Context :=
  (Context.build (RuleRegistry.after overlapping).snapshot [] ⟨"u1", none, "qq", none, "hall"⟩ ""
    ({} : Memory)).1

theorem rule_lookups_agree_overlapping :
    (∃ n t id, CallComesTo (State.start ⟨0, 0⟩) "ask" (.function 0 (asking "hp") [] "ask")
        overlappingContext n ∧
      step n = .next ⟨t, .give [.table id], n.stack⟩ ∧ Found (t.table id) "new") ∧
    ∃ n t id, CallComesTo (State.start ⟨0, 0⟩) "ask" (.function 0 (asking "san") [] "ask")
        overlappingContext n ∧
      step n = .next ⟨t, .give [.table id], n.stack⟩ ∧ Missing (t.table id) "san" := by
  have hasks := @exists_asks (State.start ⟨0, 0⟩) overlappingContext (library_start ⟨0, 0⟩) rfl rfl
    rfl "ask"
  constructor
  · obtain ⟨n, site, tail, hcomes, hcontrol⟩ := hasks "hp"
    obtain ⟨-, -, -, hasked⟩ := @rule_lookups_agree Memory _ overlapping "hp"
    obtain ⟨t, id, hstep, hfound, -⟩ := hasked [] _ "" {} _ _ _ n _ site tail hcomes hcontrol
      (hostArg_eq _ 1 rfl)
    exact ⟨n, t, id, hcomes, hstep, (hfound "new").mpr ⟨"coc", by decide +kernel⟩⟩
  · obtain ⟨n, site, tail, hcomes, hcontrol⟩ := hasks "san"
    obtain ⟨-, -, -, hasked⟩ := @rule_lookups_agree Memory _ overlapping "san"
    obtain ⟨t, id, hstep, -, hmissing⟩ := hasked [] _ "" {} _ _ _ n _ site tail hcomes hcontrol
      (hostArg_eq _ 1 rfl)
    exact ⟨n, t, id, hcomes, hstep, hmissing.mpr (by decide +kernel)⟩

end DiceHost.Engine
