import DiceHost.Engine.Run
import DiceHost.Proofs.Engine.Course
import DiceHost.Proofs.Engine.Globals
import DiceHost.Proofs.Plugin.Refused

/-! # What a refused script leaves behind

A script that is refused before its chunk runs leaves the engine as it was. A chunk that runs may
set a global variable and then give something that is no function: the script is refused, the
variable stays, and whether a later script is accepted can depend on it.
-/
namespace DiceHost.Engine
open DiceHost.Text DiceHost.Script

/-! ## Scripts that do not run -/

/-- The names that are noted in a state are replaced whenever it is used. -/
theorem alike_scripts (s : State) (loaded : KeyTable Value) :
    language.Alike { s with scripts := loaded } s := ⟨rfl, rfl⟩

/-- A script of another dialect, or one that cannot be read, is refused without a trace. -/
theorem refused_of_unread (plugins : KeyTable Plugin.Loaded) (scripts : Scripts language)
    {script : Script}
    (h : script.dialect ≠ .lua ∨ Parse.chunk (wrap script.source) = none) :
    (Plugin.loadScript plugins scripts script).2 = false ∧
      (Plugin.loadScript plugins scripts script).1.Alike scripts := by
  obtain ⟨reason, hcompile⟩ : ∃ reason, language.compile scripts.state scripts.codes
      script.qualified script.source script.dialect =
        ({ scripts.state with scripts := scripts.codes },
          .error (.scriptLoad script.qualified reason)) := by
    dsimp only [language, compile]
    split
    · exact ⟨_, rfl⟩
    · next hlua =>
      split
      · exact ⟨_, rfl⟩
      · rw [h.resolve_left hlua]
        exact ⟨_, rfl⟩
  obtain ⟨hflag, hback⟩ := @Plugin.loadScript_of_compile _ plugins _ _ _ _ hcompile
  refine ⟨hflag, ?_⟩
  rw [hback rfl]
  exact ⟨rfl, alike_scripts _ _⟩

/-! ## Room -/

/-- Instructions are not counted, and so many bytes are free. -/
structure State.Roomy (s : State) (bytes : Nat) : Prop where
  counting : s.counting = false
  free : s.held + bytes ≤ s.limits.memory

theorem State.Roomy.tick {s : State} {bytes : Nat} (h : s.Roomy bytes) : s.tick.Roomy bytes :=
  ⟨h.counting, h.free⟩

theorem checked_of_roomy {s : State} {bytes : Nat} (h : s.Roomy bytes) (control : Control)
    (stack : List Frame) : (⟨s, control, stack⟩ : Next).checked = ⟨s, control, stack⟩ := by
  have hrun : s.overrun = false := by simp [State.overrun, h.counting]
  have hroom : ¬ s.limits.memory < s.held :=
    Nat.not_lt.mpr (Nat.le_trans (Nat.le_add_right _ _) h.free)
  unfold Next.checked
  split
  · rfl
  · dsimp only
    rw [hrun]
    simp [hroom]

/-! ## A chunk that gives the second of two operands -/

/-- The code of `return function() end and` before an expression. -/
def guarded (e : Expr) : Function := ⟨0, true, [.result [.both (.function 0 false []) e]]⟩

/-- The state in which the chunk of a script starts. -/
def State.entry (s : State) (name : String) (code : Function) : State :=
  { (makeFunction s code [] (chunkName name)).1 with call := none, counting := false }

/-- The state in which the second operand is evaluated, and what waits for it. -/
def State.second (s : State) (chunk : String) : State :=
  (makeFunction (s.charge frameSize).tick.tick ⟨0, false, []⟩ [] chunk).1.tick

def secondEnv (chunk : String) : Env := ⟨[], [], chunk, 1⟩

def secondFrames (chunk : String) : List Frame :=
  [.collect [] [] (secondEnv chunk), .result, .activation {}]

section Guarded
variable {s : State} {bytes : Nat}

theorem steps_second (h : s.Roomy (bytes + 104)) (id : Nat) (chunk : String) (e : Expr) :
    (s.second chunk).Roomy bytes ∧
      Steps 5 ⟨s, .apply (.function id (guarded e) [] chunk) [] {} false, []⟩
        ⟨s.second chunk, .eval (single e) (secondEnv chunk) false, secondFrames chunk⟩ := by
  have hfree := h.free
  have hentered : (s.charge frameSize).Roomy (bytes + 40) := by
    refine ⟨h.counting, ?_⟩
    show s.held + 64 + (bytes + 40) ≤ s.limits.memory
    omega
  have hmade : (s.second chunk).Roomy bytes := by
    refine ⟨h.counting, ?_⟩
    show s.held + 64 + 40 + bytes ≤ s.limits.memory
    omega
  refine ⟨hmade, ?_⟩
  refine .next rfl (checked_of_roomy hentered _ _) ?_
  refine .next rfl (checked_of_roomy hentered.tick _ _) ?_
  refine .next rfl (checked_of_roomy hentered.tick.tick _ _) ?_
  refine .next rfl (checked_of_roomy hmade _ _) ?_
  exact .next rfl (checked_of_roomy hmade _ _) (.refl _)

theorem steps_result (h : s.Roomy bytes) (chunk : String) (v : Value) :
    Steps 2 ⟨s, .give [v], secondFrames chunk⟩ ⟨s, .give [v], []⟩ :=
  .next rfl (checked_of_roomy h _ _) (.next rfl (checked_of_roomy h _ _) (.refl _))

/-- What a script comes to whose chunk gives a value. -/
def verdict (name : String) : Value → Except Failure Value
  | .function id code slots chunk => .ok (.function id code slots chunk)
  | .builtin f => .ok (.builtin f)
  | _ => .error (.scriptLoad name "script did not evaluate to a function")

/-- What a script comes to whose second operand leads to a value. -/
theorem compile_guarded {name source : String} {e : Expr} {last : State} {count free : Nat}
    {v : Value}
    (hname : name.toList.contains '\x00' = false)
    (hchunk : Parse.chunk (wrap source) = some (guarded e).body)
    (hroom : (s.entry name (guarded e)).Roomy (bytes + 104)) (hlast : last.Roomy free)
    (hsteps : Steps count ⟨(s.entry name (guarded e)).second (chunkName name),
        .eval (single e) (secondEnv (chunkName name)) false, secondFrames (chunkName name)⟩
      ⟨last, .give [v], secondFrames (chunkName name)⟩) (hcount : count < 100) :
    compile s name source .lua = (last, verdict name v) := by
  have hfuel : 2 + (count + 5) < enoughSteps := by
    have henough : 107 < enoughSteps := by decide
    omega
  have hrun : (s.entry name (guarded e)).callValue
      (.function s.functions (guarded e) [] (chunkName name)) [] = (last, .ok [v]) :=
    run_of_steps_give (((steps_second hroom s.functions (chunkName name) e).2.trans hsteps).trans
      (steps_result hlast _ v)) hfuel
  unfold compile
  rw [if_neg (by decide), hname, if_neg (by decide), hchunk]
  dsimp only [State.entry, makeFunction, guarded] at hrun ⊢
  rw [hrun]
  cases v <;> rfl

theorem steps_global (h : s.Roomy bytes) {name : String}
    (hvalue : Table.isNil (s.globalValue name) = false ∨
      (s.globalValue name = .nil ∧ (s.table State.globals).metatable = none)) (chunk : String) :
    Steps 1 ⟨s, .eval (single (.global name.toUTF8)) (secondEnv chunk) false, secondFrames chunk⟩
      ⟨s, .give [s.globalValue name], secondFrames chunk⟩ := by
  have hatom : atom? s (secondEnv chunk) (.global name.toUTF8) = some (s.globalValue name) := by
    rcases hvalue with hvalue | ⟨hnil, hmetatable⟩
    · exact atom?_global hvalue
    · rw [hnil]
      unfold State.globalValue Table.getText at hnil
      simp only [atom?, hnil, hmetatable, Option.isNone_none, if_true]
  have hstep : step ⟨s, .eval (single (.global name.toUTF8)) (secondEnv chunk) false,
      secondFrames chunk⟩ = .next ⟨s, .give [s.globalValue name], secondFrames chunk⟩ := by
    simp only [step, eval, single, hatom]
  exact .next hstep (checked_of_roomy h _ _) (.refl _)

/-- The code of `rawset(_G, name, value)`, where the value is a global variable. -/
def rawsetCall (name value : String) : Expr :=
  .call (.global "rawset".toUTF8) [.global "_G".toUTF8, .str name.toUTF8, .global value.toUTF8] 1

/-- The state after this call. -/
def State.withGlobal (s : State) (name : String) (v : Value) : State :=
  ({ s.tick with instructions := s.instructions + 1 + 3 + 1 }).rawSet State.globals
    (.ofString name) v

theorem steps_rawset (h : s.Roomy (bytes + 32)) (chunk : String) {name value : String}
    (hrawset : s.globalValue "rawset" = .builtin .rawset)
    (hglobals : s.globalValue "_G" = .table State.globals)
    (hvalue : Table.isNil (s.globalValue value) = false) :
    (s.withGlobal name (s.globalValue value)).Roomy bytes ∧
      Steps 5 ⟨s, .eval (single (rawsetCall name value)) (secondEnv chunk) false,
          secondFrames chunk⟩
        ⟨s.withGlobal name (s.globalValue value), .give [.table State.globals],
          secondFrames chunk⟩ := by
  have hfree := h.free
  have hcounted : ({ s.tick with instructions := s.instructions + 1 + 3 + 1 } : State).Roomy
      (bytes + 32) := ⟨h.counting, h.free⟩
  have hset : (s.withGlobal name (s.globalValue value)).Roomy bytes := by
    refine ⟨h.counting, ?_⟩
    show s.held + 32 + bytes ≤ s.limits.memory
    omega
  refine ⟨hset, ?_⟩
  -- the four operands are known at once
  have hoperands : step ⟨s, .eval (rawsetCall name value) (secondEnv chunk) false,
        .first :: secondFrames chunk⟩ =
      .next ⟨s.tick,
        .give [.builtin .rawset, .table State.globals, .ofString name, s.globalValue value],
        .operate (rawsetCall name value) (secondEnv chunk) false :: .first ::
          secondFrames chunk⟩ := by
    have hatom {name : String} {v : Value} (hv : s.globalValue name = v)
        (hnil : Table.isNil v = false) :
        atom? s.tick (secondEnv chunk) (.global name.toUTF8) = some v := by
      subst hv
      exact atom?_global hnil
    have hfirst := hatom hrawset rfl
    have hsecond := hatom hglobals rfl
    have hfourth := hatom rfl hvalue
    simp only [step, eval, rawsetCall, atom?, Expr.operands]
    simp only [operands, hfirst, hsecond, hfourth]
    rfl
  refine .next rfl (checked_of_roomy h _ _) ?_
  refine .next hoperands (checked_of_roomy h.tick _ _) ?_
  refine .next rfl (checked_of_roomy hcounted _ _) ?_
  refine .next rfl (checked_of_roomy hset _ _) ?_
  exact .next rfl (checked_of_roomy hset _ _) (.refl _)

theorem globalValue_withGlobal (htables : s.tables ≠ #[]) (name other : String) (v : Value) :
    (s.withGlobal name v).globalValue other = if other = name then v else s.globalValue other :=
  @globalValue_rawSet { s.tick with instructions := s.instructions + 1 + 3 + 1 }
    (Array.size_pos_iff.mpr htables) name other v

theorem roomy_entry {code : Function} (h : s.held + 40 + bytes ≤ s.limits.memory) (name : String) :
    (s.entry name code).Roomy bytes := ⟨rfl, h⟩

end Guarded

/-! ## Two scripts -/

/-- A script that sets a global variable and gives a table. -/
def leakSource : String := "return function() end and rawset(_G, \"leak\", print)"

/-- A script that gives what this variable holds. -/
def takeSource : String := "return function() end and leak"

/-- The second operand of a chunk that gives it. -/
def second? : Option (List Stat) → Option Expr
  | some [.result [.both (.function 0 false []) e]] => some e
  | _ => none

theorem eq_of_second? {chunk : Option (List Stat)} {e : Expr} (h : second? chunk = some e) :
    chunk = some (guarded e).body := by
  unfold second? at h
  split at h
  · cases h
    rfl
  · cases h

def isGlobal (name : String) : Expr → Bool
  | .global found => found = name.toUTF8
  | _ => false

theorem eq_of_isGlobal {name : String} {e : Expr} (h : isGlobal name e = true) :
    e = .global name.toUTF8 := by
  unfold isGlobal at h
  split at h
  · rw [of_decide_eq_true h]
  · cases h

def isRawset (name value : String) : Expr → Bool
  | .call callee [table, .str key, new] 1 => isGlobal "rawset" callee && isGlobal "_G" table &&
      key = name.toUTF8 && isGlobal value new
  | _ => false

theorem eq_of_isRawset {name value : String} {e : Expr} (h : isRawset name value e = true) :
    e = rawsetCall name value := by
  unfold isRawset at h
  split at h
  · simp only [Bool.and_eq_true, decide_eq_true_eq] at h
    obtain ⟨⟨⟨hcallee, htable⟩, rfl⟩, hnew⟩ := h
    rw [eq_of_isGlobal hcallee, eq_of_isGlobal htable, eq_of_isGlobal hnew]
    rfl
  · cases h

theorem chunk_leak :
    Parse.chunk (wrap leakSource) = some (guarded (rawsetCall "leak" "print")).body := by
  have hparsed :
      (second? (Parse.chunk (wrap leakSource))).any (isRawset "leak" "print") = true := by
    decide +kernel
  obtain ⟨e, he, hcall⟩ := (Option.any_eq_true _ _).mp hparsed
  rw [eq_of_second? he, eq_of_isRawset hcall]

theorem chunk_take :
    Parse.chunk (wrap takeSource) = some (guarded (.global "leak".toUTF8)).body := by
  have hparsed : (second? (Parse.chunk (wrap takeSource))).any (isGlobal "leak") = true := by
    decide +kernel
  obtain ⟨e, he, hglobal⟩ := (Option.any_eq_true _ _).mp hparsed
  rw [eq_of_second? he, eq_of_isGlobal hglobal]

section Compile
variable {s : State} {bytes : Nat} {name : String}
  (hname : name.toList.contains '\x00' = false)
include hname

/-- The first script is refused, and the variable is set. -/
theorem compile_leak (hfree : s.held + (bytes + 176) ≤ s.limits.memory) (htables : s.tables ≠ #[])
    (hrawset : s.globalValue "rawset" = .builtin .rawset)
    (hglobals : s.globalValue "_G" = .table State.globals)
    (hprint : s.globalValue "print" = .builtin .print) :
    ∃ last failure, compile s name leakSource .lua = (last, .error failure) ∧
      last.globalValue "leak" = .builtin .print ∧ last.held + bytes ≤ last.limits.memory := by
  have hroom : (s.entry name (guarded (rawsetCall "leak" "print"))).Roomy (bytes + 32 + 104) :=
    roomy_entry (by omega) name
  generalize hsecond : (s.entry name (guarded (rawsetCall "leak" "print"))).second
    (chunkName name) = second
  have hvalue (other : String) : second.globalValue other = s.globalValue other := by
    rw [← hsecond]
    rfl
  have hprint' : second.globalValue "print" = .builtin .print := by rw [hvalue, hprint]
  obtain ⟨hfilled, -⟩ := steps_second hroom s.functions (chunkName name)
    (rawsetCall "leak" "print")
  rw [hsecond] at hfilled
  obtain ⟨hlast, hsteps⟩ := @steps_rawset _ _ hfilled (chunkName name) "leak" "print"
    (by rw [hvalue, hrawset]) (by rw [hvalue, hglobals]) (by rw [hprint']; rfl)
  rw [hprint'] at hlast hsteps
  have hleak : (second.withGlobal "leak" (.builtin .print)).globalValue "leak" =
      .builtin .print := by
    rw [globalValue_withGlobal (by rw [← hsecond]; exact htables), if_pos rfl]
  subst hsecond
  exact ⟨_, _, compile_guarded hname chunk_leak hroom hlast hsteps (by decide), hleak, hlast.free⟩

/-- What the second script comes to: what the variable holds, or nothing where it was never set. -/
theorem compile_take (hfree : s.held + 144 ≤ s.limits.memory)
    (hleak : Table.isNil (s.globalValue "leak") = false ∨
      (s.globalValue "leak" = .nil ∧ (s.table State.globals).metatable = none)) :
    ∃ last, compile s name takeSource .lua = (last, verdict name (s.globalValue "leak")) := by
  have hroom : (s.entry name (guarded (.global "leak".toUTF8))).Roomy (0 + 104) :=
    roomy_entry (by omega) name
  obtain ⟨hfilled, -⟩ := steps_second hroom s.functions (chunkName name) (.global "leak".toUTF8)
  have hsteps := @steps_global _ _ hfilled "leak" hleak (chunkName name)
  exact ⟨_, compile_guarded hname chunk_take hroom hfilled hsteps (by decide)⟩

end Compile

/-- A script of the engine whose name can be compiled. -/
structure Holds (script : Script) (source : String) : Prop where
  source : script.source = source
  dialect : script.dialect = .lua
  name : script.qualified.toList.contains '\x00' = false

/-- The state in which the next script is compiled. -/
def noting (scripts : Scripts language) : State := { scripts.state with scripts := scripts.codes }

theorem loadScript_of_holds {plugins : KeyTable Plugin.Loaded} {scripts : Scripts language}
    {script : Script} {source : String} {last : State} {outcome : Except Failure Value}
    (h : Holds script source)
    (hcompile : compile (noting scripts) script.qualified source .lua = (last, outcome)) :
    (Plugin.loadScript plugins scripts script).2 = outcome.toBool ∧
      (outcome.toBool = false →
        (Plugin.loadScript plugins scripts script).1 = ⟨last, scripts.loaded⟩) := by
  refine Plugin.loadScript_of_compile ?_
  rw [h.source, h.dialect]
  exact hcompile

/-- A state whose globals are those of the library, with room for two small scripts. -/
structure Fresh (s : State) : Prop where
  free : s.held + 320 ≤ s.limits.memory
  tables : s.tables ≠ #[]
  metatable : (s.table State.globals).metatable = none
  rawset : s.globalValue "rawset" = .builtin .rawset
  globals : s.globalValue "_G" = .table State.globals
  print : s.globalValue "print" = .builtin .print
  leak : s.globalValue "leak" = .nil

theorem start_global {limits : Limits} {name : String} {v : Option Value}
    (h : KeyTable.find? globalEntries.reverse name = v) :
    (State.start limits).globalValue name = v.getD .nil := by
  rw [globalValue_start, h]

theorem fresh_start {limits : Limits} (h : startSize + 320 ≤ limits.memory)
    (names : KeyTable Value) : Fresh { State.start limits with scripts := names } where
  free := h
  tables := by simp [State.start]
  metatable := (congrArg Table.metatable (globals_start limits)).trans (metatable_tableOf _)
  rawset := @start_global limits "rawset" (some (.builtin .rawset)) rfl
  globals := @start_global limits "_G" (some (.table State.globals)) rfl
  print := @start_global limits "print" (some (.builtin .print)) rfl
  leak := @start_global limits "leak" none rfl

/-- On its own the second script is refused. -/
theorem refused_without_leak {plugins : KeyTable Plugin.Loaded} {scripts : Scripts language}
    {take : Script} (hfresh : Fresh (noting scripts)) (htake : Holds take takeSource) :
    (Plugin.loadScript plugins scripts take).2 = false := by
  have hroom : (noting scripts).held + 144 ≤ (noting scripts).limits.memory :=
    Nat.le_trans (Nat.add_le_add_left (by decide) _) hfresh.free
  obtain ⟨last, hcompile⟩ :=
    compile_take htake.name hroom (Or.inr ⟨hfresh.leak, hfresh.metatable⟩)
  rw [hfresh.leak] at hcompile
  exact (loadScript_of_holds htake hcompile).1

/-- After the first script, which is refused, it is accepted. -/
theorem accepted_after_leak {plugins : KeyTable Plugin.Loaded} {scripts : Scripts language}
    {leak take : Script} (hfresh : Fresh (noting scripts)) (hleak : Holds leak leakSource)
    (htake : Holds take takeSource) :
    (Plugin.loadScript plugins scripts leak).2 = false ∧
      (Plugin.loadScript plugins (Plugin.loadScript plugins scripts leak).1 take).2 = true := by
  obtain ⟨last, failure, hcompile, hvalue, hlast⟩ := @compile_leak (noting scripts) 144 _
    hleak.name hfresh.free hfresh.tables hfresh.rawset hfresh.globals hfresh.print
  obtain ⟨hrefused, hback⟩ := @loadScript_of_holds plugins _ _ _ _ _ hleak hcompile
  refine ⟨hrefused, ?_⟩
  rw [hback rfl]
  generalize hafter : (⟨last, scripts.loaded⟩ : Scripts language) = after
  have hheld : (noting after).held + 144 ≤ (noting after).limits.memory := by
    rw [← hafter]
    exact hlast
  have hset : (noting after).globalValue "leak" = .builtin .print := by
    rw [← hafter]
    exact hvalue
  obtain ⟨last', hcompile'⟩ := compile_take htake.name hheld (Or.inl (by rw [hset]; rfl))
  rw [hset] at hcompile'
  exact (loadScript_of_holds htake hcompile').1

end DiceHost.Engine
