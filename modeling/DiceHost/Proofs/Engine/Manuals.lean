import DiceHost.Proofs.Engine.Course

/-! # The rules of a call

A call gets its rules when it begins. What it does may change the heap and the data of the call, but
no function that a script can call writes the rules: one lemma for each function of the engine, then
one step, then a run.
-/
namespace DiceHost.Engine

/-- The rules of the call in progress. -/
def State.manuals? (s : State) : Option Manuals := s.call.map (·.rules)

/-- A configuration that a state comes to has the rules of the state. -/
def Next.Keeps (n : Next) (s : State) : Prop := n.state.manuals? = s.manuals?

/-! ## Values of the host -/

mutual
theorem manuals?_ofJson (s : State) (v : Json) : (ofJson s v).1.manuals? = s.manuals? := by
  cases v with
  | arr items => exact manuals?_ofItems s {} items
  | obj fields => exact manuals?_ofFields s {} fields
  | _ => rfl

theorem manuals?_ofItems (s : State) (t : Table) (items : List Json) :
    (ofItems s t items).1.manuals? = s.manuals? := by
  cases items with
  | nil => rfl
  | cons v rest => exact (manuals?_ofItems _ _ rest).trans (manuals?_ofJson s v)

theorem manuals?_ofFields (s : State) (t : Table) (fields : List (String × Json)) :
    (ofFields s t fields).1.manuals? = s.manuals? := by
  cases fields with
  | nil => rfl
  | cons field rest => exact (manuals?_ofFields _ _ rest).trans (manuals?_ofJson s field.2)
end

/-! ## Built-in functions -/

namespace Library

/-- If a computation has a result, its state has the rules of the state before. -/
def Keeps (result : Check (State × List Value)) (s : State) : Prop :=
  ∀ t values, result = .ok (t, values) → t.manuals? = s.manuals?

section
variable {s t : State} {values : List Value}

theorem keeps_ok (h : t.manuals? = s.manuals?) : Keeps (.ok (t, values)) s := by
  rintro _ _ ⟨⟩
  exact h

theorem keeps_error (complaint : Complaint) : Keeps (.error complaint) s :=
  fun _ _ h => nomatch h

/-- What is read from the arguments does not matter. -/
theorem keeps_bind {α : Type} {read : Check α} {use : α → Check (State × List Value)}
    (h : ∀ a, Keeps (use a) s) : Keeps (read >>= use) s := by
  cases read with
  | error complaint => exact keeps_error complaint
  | ok a => exact h a

end

variable (s : State) (args : List Value)

/-- Writing data changes the data of the call, and nothing else of it. -/
theorem keeps_writeData (scope : DataScope) : Keeps (writeData s scope args) s := by
  unfold writeData
  refine keeps_bind fun id => keeps_bind fun key => ?_
  split
  · exact keeps_error _
  · cases hcall : s.call with
    | none =>
      simp only [callOf, hcall]
      exact keeps_error _
    | some call =>
      simp only [callOf, hcall]
      refine keeps_ok ?_
      simp only [State.manuals?, hcall, Option.map_some]

theorem keeps_readData (scope : DataScope) : Keeps (readData s scope args) s := by
  unfold readData
  refine keeps_bind fun id => keeps_bind fun key => keeps_bind fun call => ?_
  split
  · exact keeps_ok (manuals?_ofJson _ _)
  · exact keeps_ok rfl

theorem keeps_compute (f : Builtin) : Keeps (compute f s args) s := by
  cases f with
  | readData scope => exact keeps_readData s args scope
  | writeData scope => exact keeps_writeData s args scope
  | _ =>
    -- the other functions read arguments, and then answer or complain
    simp only [compute, tonumber, nextEntry, setMetatable, getMetatable, selectArgs,
      selectArgs.pick, stringRep, stringSearch, tableConcat, tableInsert, tableRemove, tableUnpack,
      rounded, arithmeticOnText, queryRule, aliased]
    repeat' first
      | exact keeps_ok rfl
      | exact keeps_error _
      | refine keeps_bind fun _ => ?_
      | split

end Library

/-! ## Errors and calls -/

section Functions
variable (s : State)

theorem manuals?_declare (count : Nat) (values : List Value) (slots : List Nat) :
    (s.declare count values slots).1.manuals? = s.manuals? := by
  induction count generalizing s values slots with
  | zero => rfl
  | succ count ih => exact ih _ _ _

theorem keeps_complain (f : Builtin) (site : Site) (k : List Frame) (complaint : Complaint) :
    (complain s f site k complaint).Keeps s := by
  cases complaint <;> rfl

theorem keeps_enter (f : Function) (slots : List Nat) (chunk : String) (args : List Value)
    (site : Site) (tail : Bool) (k : List Frame) :
    (enter s f slots chunk args site tail k).Keeps s := by
  unfold enter
  generalize (if tail = true then (replaceFunction k).getD (site, k) else (site, k)) = place
  dsimp only
  split
  · rfl
  · exact manuals?_declare s _ _ _

theorem keeps_substitute (work : Substitution) (site : Site) (k : List Frame) :
    (substitute s work site k).Keeps s := by
  unfold substitute
  split <;> rfl

theorem keeps_raiseAt (v : Value) (level : Int) (site : Site) (k : List Frame) :
    (callBuiltin.raiseAt s v level site k).Keeps s := by
  unfold callBuiltin.raiseAt
  repeat' split
  all_goals rfl

theorem keeps_callBuiltin (f : Builtin) (args : List Value) (site : Site) (k : List Frame) :
    (callBuiltin s f args site k).Keeps s := by
  unfold callBuiltin
  dsimp only
  split
  all_goals
    repeat' first
      | exact Library.keeps_compute s args f _ _ ‹_›
      | exact keeps_complain s _ site k _
      | exact keeps_raiseAt s _ _ site k
      | exact keeps_substitute s _ site k
      | rfl
      | split

theorem keeps_apply (callee : Value) (args : List Value) (site : Site) (tail : Bool)
    (k : List Frame) : (apply s callee args site tail k).Keeps s := by
  unfold apply
  split
  · exact keeps_enter s _ _ _ args site tail k
  · exact keeps_callBuiltin s _ args site k
  · split <;> rfl

/-! ## Operations -/

theorem keeps_readField (object key : Value) (label : Option (String × String)) (env : Env)
    (line : Nat) (k : List Frame) : (readField s object key label env line k).Keeps s := by
  unfold readField
  split <;> rfl

theorem keeps_arithmetic (op : ArithmeticOp) (a b : Value) (left right : Expr) (line : Nat)
    (env : Env) (k : List Frame) : (arithmetic s op a b left right line env k).Keeps s := by
  unfold arithmetic
  repeat' split
  all_goals rfl

theorem keeps_compareValues (op : CompareOp) (a b : Value) (line : Nat) (env : Env)
    (k : List Frame) : (compareValues s op a b line env k).Keeps s := by
  unfold compareValues
  repeat' split
  all_goals rfl

theorem keeps_equalValues (a b : Value) (wanted : Bool) (env : Env) (k : List Frame) :
    (equalValues s a b wanted env k).Keeps s := by
  unfold equalValues
  repeat' split
  all_goals rfl

theorem keeps_join (pending : List Value) (value : Value) (e : Expr) (env : Env) (k : List Frame) :
    (join s pending value e env k).Keeps s := by
  unfold join
  repeat' split
  all_goals rfl

theorem keeps_unaryOperation (op : UnaryOp) (v : Value) (operand : Expr) (line : Nat) (env : Env)
    (k : List Frame) : (unaryOperation s op v operand line env k).Keeps s := by
  unfold unaryOperation
  dsimp only
  repeat' split
  all_goals rfl

theorem keeps_operate (e : Expr) (env : Env) (tail : Bool) (vs : List Value) (k : List Frame) :
    (operate s e env tail vs k).Keeps s := by
  unfold operate
  split
  · exact keeps_readField s _ _ _ env _ k
  · rfl
  · exact keeps_unaryOperation s _ _ _ _ env k
  · exact keeps_arithmetic s _ _ _ _ _ _ env k
  · exact keeps_compareValues s _ _ _ _ env k
  · exact keeps_equalValues s _ _ _ env k
  · split
    · rfl
    · exact keeps_join s _ _ _ env k
  · split <;> rfl
  · rfl

/-! ## Expressions and statements -/

theorem keeps_operands (env : Env) (k : List Frame) (done : List Value) (es : List Expr) :
    (operands s env k done es).Keeps s := by
  fun_induction operands s env k done es with
  | case3 done e rest hrest v hatom ih => exact ih
  | _ => rfl

theorem keeps_eval (e : Expr) (env : Env) (tail : Bool) (k : List Frame) :
    (eval s e env tail k).Keeps s := by
  unfold eval
  split
  · rfl
  · split
    · exact keeps_readField s _ _ _ env _ k
    all_goals first
      | rfl
      | exact keeps_operands s.tick env _ _ _

theorem keeps_withMethod (object f : Value) (e : Expr) (env : Env) (tail : Bool) (k : List Frame) :
    (withMethod s object f e env tail k).Keeps s := by
  unfold withMethod
  split
  · exact keeps_operands s env _ _ _
  · rfl

theorem keeps_store (o key value : Value) (target : Expr) (line : Nat) (env : Env)
    (k : List Frame) : (store s o key value target line env k).Keeps s := by
  have hplace (object key : Value) (label : Option (String × String)) :
      (store.place s value line env k object key label).Keeps s := by
    unfold store.place
    repeat' split
    all_goals rfl
  unfold store
  split
  · split <;> rfl
  · exact hplace _ _ _
  · exact hplace _ _ _
  · rfl

theorem keeps_exec (body : List Stat) (env : Env) (k : List Frame) :
    (exec s body env k).Keeps s := by
  unfold exec
  split
  · rfl
  · split
    all_goals
      repeat' first
        | rfl
        | exact keeps_operands _ env _ _ _
        | split

theorem keeps_countOn (count : Count) (body : List Stat) (env : Env) (k : List Frame) :
    (countOn s count body env k).Keeps s := by
  unfold countOn
  split <;> rfl

theorem keeps_startCount (start limit step : Value) (body : List Stat) (line : Nat) (env : Env)
    (k : List Frame) : (startCount s start limit step body line env k).Keeps s := by
  unfold startCount
  repeat' split
  all_goals first
    | rfl
    | exact keeps_countOn s _ body env k

/-! ## Steps -/

theorem keeps_give (vs : List Value) (frame : Frame) (k : List Frame) :
    (give s vs frame k).Keeps s := by
  unfold give
  dsimp only
  split
  all_goals
    repeat' first
      | rfl
      | exact keeps_operands s _ _ _ _
      | exact keeps_operate s _ _ _ _ k
      | exact keeps_withMethod s _ _ _ _ _ k
      | exact keeps_readField s _ _ _ _ _ _
      | exact keeps_join s _ _ _ _ k
      | exact manuals?_declare s _ _ _
      | exact keeps_store s _ _ _ _ _ _ _
      | exact keeps_startCount s _ _ _ _ _ _ k
      | exact keeps_countOn s _ _ _ k
      | exact keeps_substitute s _ _ k
      | split

theorem keeps_unwind {fault : Fault} {k : List Frame} {n : Next}
    (h : unwind s fault k = some n) : n.Keeps s := by
  fun_induction unwind s fault k with
  | case1 => cases h
  | case2 => cases h; rfl
  | case3 => cases h; rfl
  | case4 frame k _ _ ih => exact ih h

end Functions

theorem keeps_step {n m : Next} (h : step n = .next m) : m.Keeps n.state := by
  obtain ⟨s, control, k⟩ := n
  cases control with
  | eval e env tail =>
    cases h
    exact keeps_eval s e env tail k
  | operands done rest env =>
    cases h
    exact keeps_operands s env k done rest
  | exec body env =>
    cases h
    exact keeps_exec s body env k
  | apply f args site tail =>
    cases h
    exact keeps_apply s f args site tail k
  | give vs =>
    cases k with
    | nil => cases h
    | cons frame k =>
      cases h
      exact keeps_give s vs frame k
  | raise fault =>
    simp only [step] at h
    split at h
    · next hcaught =>
      cases h
      exact keeps_unwind s hcaught
    · cases h

theorem manuals?_checked (n : Next) : n.checked.state.manuals? = n.state.manuals? := by
  unfold Next.checked
  dsimp only
  repeat' split
  all_goals rfl

/-- However far a call has come, its rules are those it began with. -/
theorem Steps.manuals? {count : Nat} {n m : Next} (h : Steps count n m) :
    m.state.manuals? = n.state.manuals? := by
  induction h with
  | refl n => rfl
  | cons hstep _ ih => exact ih.trans ((manuals?_checked _).trans (keeps_step hstep))

end DiceHost.Engine
