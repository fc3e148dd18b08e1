import DiceHost.Proofs.Engine.Course

/-! # What expressions give

Rules for the course of an evaluation, one for each kind of expression: from what the operands give
to what the expression gives. The values count, not the steps on the way.
-/
namespace DiceHost.Engine

/-! ## What an evaluation depends on -/

theorem metamethod_congr {s t : State} (h : t.tables = s.tables) (v : Value) (name : String) :
    t.metamethod v name = s.metamethod v name := by
  unfold State.metamethod State.metatable? State.table
  rw [h]

theorem index_congr {s t : State} (h : t.tables = s.tables) (fuel : Nat) (object key : Value) :
    t.index fuel object key = s.index fuel object key := by
  have htable (id : Nat) : t.table id = s.table id := by
    unfold State.table
    rw [h]
  induction fuel generalizing object with
  | zero => rfl
  | succ fuel ih =>
    unfold State.index
    simp only [metamethod_congr h, htable, ih]

section Table
variable {s : State} {id fuel : Nat} {key : Bytes}

theorem index_own {v : Value} (hget : (s.table id).get (.str key) = v)
    (hv : Table.isNil v = false) :
    s.index (fuel + 1) (.table id) (.str key) = .found v := by
  unfold State.index
  dsimp only
  rw [hget]
  cases v with
  | nil => cases hv
  | _ => rfl

theorem index_plain (hget : (s.table id).get (.str key) = .nil)
    (hplain : (s.table id).metatable = none) :
    s.index (fuel + 1) (.table id) (.str key) = .found .nil := by
  have hnone : s.metamethod (.table id) "__index" = .nil := by
    simp only [State.metamethod, State.metatable?, hplain]
  unfold State.index
  dsimp only
  rw [hget]
  dsimp only
  rw [hnone]

/-- For a value that is not there a function of the metatable is asked. -/
theorem index_asked {m : Nat} {f : Builtin} (hget : (s.table id).get (.str key) = .nil)
    (hmetatable : (s.table id).metatable = some m)
    (hindex : (s.table m).getText "__index" = .builtin f) :
    s.index (fuel + 1) (.table id) (.str key) = .ask (.builtin f) (.table id) := by
  have hmethod : s.metamethod (.table id) "__index" = .builtin f := by
    simp only [State.metamethod, State.metatable?, hmetatable]
    exact hindex
  unfold State.index
  dsimp only
  rw [hget]
  dsimp only
  rw [hmethod]

end Table

theorem atom?_counted (s : State) (held instructions : Nat) (env : Env) (e : Expr) :
    atom? (s.counted held instructions) env e = atom? s env e := by
  cases e <;> rfl

theorem Becomes.tick {f : State → Next} {s : State} {k : List Frame} {n : Next}
    (h : Becomes f s k n) : Becomes (fun s => f s.tick) s k n :=
  ⟨fun held instructions => h.eq held (instructions + 1), h.uncaught, h.limits, h.counting⟩

theorem Becomes.loads {f : State → Next} {s : State} {k : List Frame} {n : Next}
    (h : Becomes f s k n) (es : List Expr) : Becomes (fun s => f (s.loads es)) s k n :=
  ⟨fun held instructions => h.eq held (instructions + es.countP isLoad), h.uncaught, h.limits,
    h.counting⟩

/-! ## Values -/

/-- An expression gives values. -/
def Gives (count : Nat) (s t : State) (env : Env) (e : Expr) (vs : List Value) : Prop :=
  ∀ k, Leads count ⟨s, .eval e env false, k⟩ ⟨t, .give vs, k⟩

/-- The values of expressions are collected behind those that are known. -/
def Collects (count : Nat) (s t : State) (env : Env) (es : List Expr) (vs : List Value) : Prop :=
  ∀ done k, ∃ n, Becomes (fun s => operands s env k done es) s k n ∧
    Leads count n ⟨t, .give (done.reverse ++ vs), k⟩

variable {s t u : State} {env : Env} {e : Expr} {es : List Expr} {v : Value} {vs ws : List Value}
  {count count' : Nat}

theorem gives_atom (h : atom? s env e = some v) : Gives 1 s s env e [v] := by
  intro k
  refine .one (fun held instructions => ⟨held, instructions, ?_⟩) ⟨id, rfl, rfl⟩
  simp only [step, Next.counted, eval, atom?_counted, h]

theorem collects_nil : Collects 0 s s env [] [] := by
  refine fun done k => ⟨⟨s, .give done.reverse, k⟩, .of_eq (fun _ _ => ?_) id rfl rfl, ?_⟩
  · simp only [operands]
    rfl
  · rw [List.append_nil]
    exact .refl rfl

theorem operands_atom (h : atom? s env e = some v) (k : List Frame) (done : List Value) :
    operands s env k done (e :: es) = operands s env k (v :: done) es := by
  have hrest : e ≠ .rest := by
    rintro rfl
    cases h
  rw [operands.eq_def]
  split
  · next heq => cases heq
  · next heq =>
    cases heq
    exact absurd rfl hrest
  · next heq =>
    cases heq
    rw [h]

theorem operands_eval (h : atom? s env e = none) (hrest : e ≠ .rest) (k : List Frame)
    (done : List Value) :
    operands s env k done (e :: es) = ⟨s, .eval e env false, .collect done es env :: k⟩ := by
  rw [operands.eq_def]
  split
  · next heq => cases heq
  · next heq =>
    cases heq
    exact absurd rfl hrest
  · next heq =>
    cases heq
    rw [h]

theorem collects_atom (h : atom? s env e = some v) (hs : Collects count s t env es vs) :
    Collects count s t env (e :: es) (v :: vs) := by
  intro done k
  obtain ⟨n, hn, hleads⟩ := hs (v :: done) k
  refine ⟨n, ⟨fun held instructions => ?_, hn.uncaught, hn.limits, hn.counting⟩, ?_⟩
  · rw [operands_atom ((atom?_counted ..).trans h)]
    exact hn.eq held instructions
  · rwa [List.reverse_cons, List.append_assoc, List.singleton_append] at hleads

/-- An expression that takes steps. -/
def isCompound : Expr → Bool
  | .nil | .boolean _ | .int _ | .float _ | .str _ | .rest | .slot .. | .global _ => false
  | _ => true

theorem operands_compound (he : isCompound e = true) (k : List Frame) (done : List Value) :
    operands s env k done (e :: es) = ⟨s, .eval e env false, .collect done es env :: k⟩ := by
  refine operands_eval ?_ ?_ k done
  · cases e <;> first | rfl | cases he
  · rintro rfl
    cases he

theorem collects_cons (he : isCompound e = true) (h : Gives count s t env e vs) {e' : Expr}
    (hs : Collects count' t u env (e' :: es) ws) :
    Collects (count' + 1 + count) s u env (e :: e' :: es) (head vs :: ws) := by
  intro done k
  obtain ⟨n, hn, hleads⟩ := hs (head vs :: done) k
  refine ⟨⟨s, .eval e env false, .collect done (e' :: es) env :: k⟩,
    .of_eq (fun _ _ => ?_) id rfl rfl, (h _).trans ?_⟩
  · rw [operands_compound he]
    rfl
  · rw [List.reverse_cons, List.append_assoc, List.singleton_append] at hleads
    exact hn.leads (fun _ => rfl) id hleads

theorem collects_last (he : isCompound e = true) (h : Gives count s t env e vs) :
    Collects (1 + count) s t env [e] vs := by
  intro done k
  refine ⟨⟨s, .eval e env false, .collect done [] env :: k⟩,
    .of_eq (fun _ _ => ?_) id rfl rfl, (h _).trans ?_⟩
  · rw [operands_compound he]
    rfl
  · exact .one (fun held instructions => ⟨held, instructions, rfl⟩) ⟨id, rfl, rfl⟩

/-! ## Operators -/

/-- An operator whose operands are evaluated first. -/
def Operator (e : Expr) : Prop :=
  ∀ s env tail k, eval s e env tail k =
    operands s.tick env (.operate e env tail :: k) [] e.operands

theorem leads_operate {tail : Bool} {k : List Frame} {n last : Next} (he : Operator e)
    (hs : Collects count s t env e.operands vs)
    (hn : Becomes (fun t => operate t e env tail vs k) t k n) (hlast : Leads count' n last) :
    Leads (count' + 1 + count + 1) ⟨s, .eval e env tail, k⟩ last := by
  obtain ⟨m, hm, hleads⟩ := hs [] (.operate e env tail :: k)
  refine hm.tick.leads (fun s => congrArg Progress.next (he s env tail k)) id ?_
  exact hleads.trans (hn.leads (fun _ => rfl) id hlast)

theorem gives_operate (he : Operator e) (hs : Collects count s t env e.operands vs)
    (hn : ∀ k, Becomes (fun t => operate t e env false vs k) t k ⟨t, .give ws, k⟩) :
    Gives (count + 2) s t env e ws := by
  intro k
  have hleads := leads_operate he hs (hn k) (.refl rfl)
  rwa [Nat.zero_add, Nat.add_right_comm, Nat.add_comm] at hleads

section Index
variable {object key : Expr} {o w : Value} {line : Nat}

theorem gives_found (hs : Collects count s t env [object, single key] [o, w])
    (hfound : t.index State.chainLimit o w = .found v) :
    Gives (count + 2) s t env (.index object key line) [v] := by
  refine gives_operate (fun _ _ _ _ => rfl) hs (fun k => .of_eq (fun held instructions => ?_) id
    rfl rfl)
  have hcounted := (index_congr (s := t) (t := t.counted held instructions) rfl _ o _).trans hfound
  simp only [operate, readField, hcounted]
  rfl

theorem gives_index {key : Bytes} (hs : Collects count s t env [object, .str key] [o, .str key])
    (hfound : t.index State.chainLimit o (.str key) = .found v) :
    Gives (count + 2) s t env (.index object (.str key) line) [v] :=
  @gives_found _ _ _ _ _ object (.str key) _ _ _ hs hfound

theorem gives_asked {f o' : Value} (hs : Collects count s t env [object, single key] [o, w])
    (hasked : t.index State.chainLimit o w = .ask f o')
    (hcall : ∀ k, Leads count' ⟨t, .apply f [o', w] { depth := env.depth } false, k⟩
      ⟨u, .give vs, k⟩) :
    Gives (1 + count' + 1 + count + 1) s u env (.index object key line) [head vs] := by
  intro k
  have hask : Becomes (fun t => operate t (.index object key line) env false [o, w] k) t k
      ⟨t, .apply f [o', w] { depth := env.depth } false, .first :: k⟩ := by
    refine .of_eq (fun held instructions => ?_) id rfl rfl
    have hcounted :=
      (index_congr (s := t) (t := t.counted held instructions) rfl _ o _).trans hasked
    simp only [operate, readField, hcounted]
    rfl
  have hfirst : Leads 1 ⟨u, .give vs, .first :: k⟩ ⟨u, .give [head vs], k⟩ :=
    .one (fun held instructions => ⟨held, instructions, rfl⟩) ⟨id, rfl, rfl⟩
  exact leads_operate (fun _ _ _ _ => rfl) hs hask ((hcall _).trans hfirst)

end Index

/-- Two values that are not both tables. -/
def Plain : Value → Value → Prop
  | .table _, .table _ => False
  | _, _ => True

theorem gives_equal {left right : Expr} {a b : Value} {wanted : Bool} {line : Nat}
    (hs : Collects count s t env [left, single right] [a, b]) (hplain : Plain a b) :
    Gives (count + 2) s t env (.equal left right wanted line) [.bool (a.same b == wanted)] := by
  refine gives_operate (fun _ _ _ _ => rfl) hs (fun k => .of_eq (fun held instructions => ?_) id
    rfl rfl)
  simp only [operate, equalValues]
  cases hsame : a.same b with
  | true => cases wanted <;> rfl
  | false =>
    rw [if_neg (by decide)]
    split
    · exact absurd hplain id
    · cases wanted <;> rfl

theorem gives_concat {left right : Expr} {a b : Bytes} {line : Nat}
    (hs : Collects count s t env [left, single right] [.str a, .str b]) :
    Gives (count + 2) s t env (.concat [left, right] line) [.str (a ++ b)] := by
  refine gives_operate (fun _ _ _ _ => rfl) hs (fun k => ⟨fun held instructions =>
    ⟨held + ((a ++ b).size + 25), instructions, ?_⟩, id, rfl, rfl⟩)
  rfl

/-! ## Short circuits -/

/-- `left and right` where true is wanted, `left or right` where false is. -/
def shortCircuit : Bool → Expr → Expr → Expr
  | true, left, right => .both left right
  | false, left, right => .either left right

theorem eval_shortCircuit (wanted : Bool) (s : State) (left right : Expr) (env : Env) (tail : Bool)
    (k : List Frame) : eval s (shortCircuit wanted left right) env tail k =
      ⟨s.tick, .eval left env false, .shortCircuit wanted right env :: k⟩ := by
  cases wanted <;> rfl

theorem leads_shortCircuit {wanted : Bool} {left right : Expr} {k : List Frame} {n last : Next}
    (h : Gives count s t env left vs)
    (hn : Becomes (fun t => give t vs (.shortCircuit wanted right env) k) t k n)
    (hlast : Leads count' n last) :
    Leads (count' + 1 + count + 1) ⟨s, .eval (shortCircuit wanted left right) env false, k⟩
      last := by
  have hstart : Becomes (fun s => eval s (shortCircuit wanted left right) env false k) s k
      ⟨s, .eval left env false, .shortCircuit wanted right env :: k⟩ :=
    ⟨fun held instructions => ⟨held, instructions + 1, eval_shortCircuit ..⟩, id, rfl, rfl⟩
  exact hstart.leads (fun _ => rfl) id ((h _).trans (hn.leads (fun _ => rfl) id hlast))

theorem gives_first (wanted : Bool) {left right : Expr} (h : Gives count s t env left vs)
    (hvalue : (head vs).truthy = !wanted) :
    Gives (count + 2) s t env (shortCircuit wanted left right) [head vs] := by
  intro k
  have hn : Becomes (fun t => give t vs (.shortCircuit wanted right env) k) t k
      ⟨t, .give [head vs], k⟩ := by
    refine .of_eq (fun _ _ => ?_) id rfl rfl
    simp only [give, hvalue]
    cases wanted <;> rfl
  have hleads := leads_shortCircuit h hn (.refl rfl)
  rwa [Nat.zero_add, Nat.add_right_comm, Nat.add_comm] at hleads

theorem gives_second (wanted : Bool) {left right : Expr} (h : Gives count s t env left vs)
    (hvalue : (head vs).truthy = wanted) (h' : Gives count' t u env (single right) ws) :
    Gives (count' + 1 + count + 1) s u env (shortCircuit wanted left right) ws := by
  intro k
  have hn : Becomes (fun t => give t vs (.shortCircuit wanted right env) k) t k
      ⟨t, .eval (single right) env false, k⟩ := by
    refine .of_eq (fun _ _ => ?_) id rfl rfl
    simp only [give, hvalue, beq_self_eq_true, if_true]
    rfl
  exact leads_shortCircuit h hn (h' k)

/-! ## Calls -/

/-- A value is called with arguments and gives values. -/
def Answers (count : Nat) (s t : State) (f : Value) (args : List Value) (site : Site) (tail : Bool)
    (vs : List Value) : Prop :=
  ∀ k, Leads count ⟨s, .apply f args site tail, k⟩ ⟨t, .give vs, k⟩

/-- The place of a call in an expression. -/
def callSite (callee : Expr) (line : Nat) (env : Env) : Site :=
  ⟨some (env.chunk, line), callee.label, env.depth⟩

theorem leads_call_of (callee : Expr) (args : List Expr) {line : Nat} {f : Value} {tail : Bool}
    (hs : Collects count s t env (Expr.call callee args line).operands (f :: vs))
    (hcall : Answers count' t u f vs (callSite callee line env) tail ws) (k : List Frame) :
    Leads (count' + 1 + count + 1) ⟨s, .eval (.call callee args line) env tail, k⟩
      ⟨u, .give ws, k⟩ := by
  refine leads_operate (fun _ _ _ _ => rfl) hs ?_ (hcall k)
  exact ⟨fun held instructions => ⟨held, instructions + vs.length + 1, rfl⟩, id, rfl, rfl⟩

theorem leads_call {callee : Expr} {args : List Expr} {arg : Expr} {line : Nat} {f : Value}
    {tail : Bool}
    (hs : Collects count s t env (callee :: arg :: args) (f :: vs))
    (hcall : Answers count' t u f vs (callSite callee line env) tail ws) (k : List Frame) :
    Leads (count' + 1 + count + 1) ⟨s, .eval (.call callee (arg :: args) line) env tail, k⟩
      ⟨u, .give ws, k⟩ := leads_call_of callee (arg :: args) hs hcall k

theorem gives_call {callee : Expr} {args : List Expr} {arg : Expr} {line : Nat} {f : Value}
    (hs : Collects count s t env (callee :: arg :: args) (f :: vs))
    (hcall : Answers count' t u f vs (callSite callee line env) false ws) :
    Gives (count' + 1 + count + 1) s u env (.call callee (arg :: args) line) ws :=
  leads_call hs hcall

theorem declare_counted (params : Nat) (args : List Value) (s : State) (slots : List Nat)
    (held instructions : Nat) :
    (s.counted held instructions).declare params args slots =
      ((s.declare params args slots).1.counted held instructions,
        (s.declare params args slots).2) := by
  induction params generalizing args s slots with
  | zero => rfl
  | succ params ih => exact ih args.tail (s.newCell (head args)).1 (s.cells.size :: slots)

theorem declare_eq (params : Nat) (args : List Value) (s : State) (slots : List Nat) :
    ∃ cells, (s.declare params args slots).1 = { s with cells := cells } := by
  induction params generalizing args s slots with
  | zero => exact ⟨s.cells, rfl⟩
  | succ params ih => exact ih args.tail (s.newCell (head args)).1 (s.cells.size :: slots)

/-- A function is entered: its parameters are declared, and its code is run. -/
theorem leads_enter {fid : Nat} {f : Function} {slots slots' : List Nat} {chunk : String}
    {args : List Value} {site : Site} {k : List Frame} {last : Next}
    (hdepth : site.depth < depthLimit) (hdeclare : s.declare f.params args slots = (t, slots'))
    (h : Leads count ⟨t, .exec f.body ⟨slots', if f.variadic then args.drop f.params else [], chunk,
      site.depth + 1⟩, .activation site :: k⟩ last) :
    Leads (count + 1) ⟨s, .apply (.function fid f slots chunk) args site false, k⟩ last := by
  obtain ⟨cells, hcells⟩ := declare_eq f.params args s slots
  have ht : t = { s with cells := cells } := by rw [← hcells, hdeclare]
  have henter : Becomes (fun s => enter s f slots chunk args site false k) s k
      ⟨t, .exec f.body ⟨slots', if f.variadic then args.drop f.params else [], chunk,
        site.depth + 1⟩, .activation site :: k⟩ := by
    refine ⟨fun held instructions => ⟨held + frameSize, instructions, ?_⟩, id, ?_, ?_⟩
    · simp only [enter, Bool.false_eq_true, if_false, Nat.not_le.mpr hdepth, declare_counted,
        hdeclare]
      rfl
    · rw [ht]
    · rw [ht]
  exact henter.leads (fun _ => rfl) id h

/-- A function whose code returns a call in its last place: what this call answers is its own
answer. -/
theorem answers_return_call {fid params : Nat} {slots slots' : List Nat} {chunk : String}
    {args : List Value} {site : Site} {e : Expr}
    (hcall : isCall e = true)
    (hdepth : site.depth < depthLimit) (hdeclare : s.declare params args slots = (t, slots'))
    (h : ∀ k, Leads count ⟨t, .eval e ⟨slots', [], chunk, site.depth + 1⟩ true, k⟩
      ⟨u, .give vs, k⟩) :
    Answers (1 + count + 2) s u (.function fid ⟨params, false, [.result [e]]⟩ slots chunk) args site
      false vs := by
  intro k
  have hexec : Becomes (fun t => exec t [.result [e]] ⟨slots', [], chunk, site.depth + 1⟩
      (.activation site :: k)) t (.activation site :: k)
      ⟨t, .eval e ⟨slots', [], chunk, site.depth + 1⟩ true, .result :: .activation site :: k⟩ := by
    refine ⟨fun held instructions => ⟨held, instructions + 1, ?_⟩, id, rfl, rfl⟩
    simp only [exec, hcall, if_true]
    rfl
  refine leads_enter hdepth hdeclare (hexec.leads (fun _ => rfl) id ((h _).trans ?_))
  exact .one (fun held instructions => ⟨held, instructions, rfl⟩) ⟨id, rfl, rfl⟩

theorem gives_group {e : Expr} (h : Gives count s t env e vs) :
    Gives (1 + count + 1) s t env (.group e) [head vs] := by
  intro k
  have hstart : Becomes (fun s => eval s (.group e) env false k) s k
      ⟨s, .eval e env false, .first :: k⟩ := .of_eq (fun _ _ => rfl) id rfl rfl
  have hlast : Leads 1 ⟨t, .give vs, .first :: k⟩ ⟨t, .give [head vs], k⟩ :=
    .one (fun held instructions => ⟨held, instructions, rfl⟩) ⟨id, rfl, rfl⟩
  exact hstart.leads (fun _ => rfl) id ((h _).trans hlast)

/-- A function value sees the variables in sight. -/
theorem gives_function (params : Nat) (variadic : Bool) (body : List Stat) :
    Gives 1 s { s with functions := s.functions + 1 } env (.function params variadic body)
      [.function s.functions ⟨params, variadic, body⟩ env.slots env.chunk] := by
  intro k
  exact .one (fun held instructions =>
    ⟨held + 40 + 8 * env.slots.length, instructions + 1, rfl⟩) ⟨id, rfl, rfl⟩

def methodSite (name : Bytes) (line : Nat) (env : Env) : Site :=
  ⟨some (env.chunk, line), some ("method", Value.textOf name), env.depth⟩

theorem gives_invoke (lookup : Nat) {object : Expr} {name : Bytes} {args : List Expr} {line : Nat}
    {o f : Value} {count'' : Nat} (hobject : Gives count s t env object [o])
    (hfound : t.index State.chainLimit o (.str name) = .found f)
    (hs : Collects count' t u env args vs) {w : State}
    (hcall : Answers count'' u w f (o :: vs) (methodSite name line env) false ws) :
    Gives (count'' + 1 + count' + 1 + count + 1) s w env (.invoke object name args lookup line)
      ws := by
  intro k
  obtain ⟨n, hn, hleads⟩ := hs [o] (.apply f (methodSite name line env) false :: k)
  have hstart : Becomes (fun s => eval s (.invoke object name args lookup line) env false k) s k
      ⟨s, .eval object env false, .object (.invoke object name args lookup line) env false :: k⟩ :=
    ⟨fun held instructions => ⟨held, instructions + 1, rfl⟩, id, rfl, rfl⟩
  have hmethod : Becomes (fun t => give t [o] (.object (.invoke object name args lookup line) env
      false) k) t k n := by
    refine ⟨fun held instructions => ?_, hn.uncaught, hn.limits, hn.counting⟩
    have hcounted : (t.counted held instructions).index State.chainLimit o (.str name) =
        .found f :=
      (index_congr (s := t) (t := t.counted held instructions) rfl _ o _).trans hfound
    obtain ⟨held', instructions', heq⟩ := hn.eq held instructions
    refine ⟨held', instructions', Eq.trans ?_ heq⟩
    simp only [give, head, List.headD_cons, hcounted]
    rfl
  refine hstart.leads (fun _ => rfl) id ((hobject _).trans ?_)
  refine hmethod.leads (fun _ => rfl) id (hleads.trans ?_)
  exact (hcall k).after (fun _ _ => rfl) ⟨id, rfl, rfl⟩

/-! ## Statements -/

/-- The surroundings with one more variable. -/
def Env.with (env : Env) (s : State) : Env := { env with slots := s.cells.size :: env.slots }

/-- The state with one more variable, which holds a function that sees it. -/
def State.withFunction (s : State) (f : Function) (env : Env) : State :=
  { s with
    functions := s.functions + 1
    cells := s.cells.push (.function s.functions f (env.with s).slots env.chunk) }

theorem push_setIfInBounds {α : Type} (xs : Array α) (x y : α) :
    (xs.push x).setIfInBounds xs.size y = xs.push y := by
  rw [Array.setIfInBounds, dif_pos (by simp), Array.set_push, dif_neg (Nat.lt_irrefl _)]

section Statements
variable {rest : List Stat} {k : List Frame} {last : Next}

theorem leads_values {values : List Expr} (hs : Collects count s t env values vs) :
    Leads (count + 1) ⟨s, .exec (.locals 1 values :: rest) env, k⟩
      ⟨t, .give vs, .locals 1 rest env :: k⟩ := by
  obtain ⟨n, hn, hleads⟩ := hs [] (.locals 1 rest env :: k)
  exact (hn.loads values).leads (fun _ => rfl) id hleads

theorem leads_local {values : List Expr} (hs : Collects count s t env values vs)
    (hrest : Leads count' ⟨(t.newCell (head vs)).1, .exec rest (env.with t), k⟩ last) :
    Leads (count' + 1 + count + 1) ⟨s, .exec (.locals 1 values :: rest) env, k⟩ last :=
  (leads_values hs).trans (hrest.after (fun _ _ => rfl) ⟨id, rfl, rfl⟩)

theorem leads_localFunction {f : Function}
    (hrest : Leads count ⟨s.withFunction f env, .exec rest (env.with s), k⟩ last) :
    Leads (count + 1)
      ⟨s, .exec (.localFunction f.params f.variadic f.body :: rest) env, k⟩ last := by
  have hstart : Becomes
      (fun s => exec s (.localFunction f.params f.variadic f.body :: rest) env k) s k
      ⟨s.withFunction f env, .exec rest (env.with s), k⟩ := by
    refine ⟨fun held instructions => ⟨held + 40 + 8 * (env.with s).slots.length,
      instructions + 1, ?_⟩, id, rfl, rfl⟩
    unfold State.withFunction
    rw [← push_setIfInBounds s.cells .nil]
    rfl
  exact hstart.leads (fun _ => rfl) id hrest

theorem leads_cond {test : Expr} {yes no chosen : List Stat} {next : Stat}
    (htest : Gives count s t env test vs)
    (hchosen : (if (head vs).truthy then yes else no) = chosen)
    (hrest : Leads count' ⟨t, .exec chosen env, .seq (next :: rest) env :: k⟩ last) :
    Leads (count' + 1 + count + 1) ⟨s, .exec (.cond test yes no :: next :: rest) env, k⟩ last := by
  have hstart : Becomes (fun s => exec s (.cond test yes no :: next :: rest) env k) s k
      ⟨s, .eval test env false, .branch yes no env :: .seq (next :: rest) env :: k⟩ :=
    ⟨fun held instructions => ⟨held, instructions + [test].countP isLoad, rfl⟩, id, rfl, rfl⟩
  refine hstart.leads (fun _ => rfl) id ((htest _).trans ?_)
  subst hchosen
  exact hrest.after (fun _ _ => rfl) ⟨id, rfl, rfl⟩

theorem leads_assign {values : List Expr} {i id : Nat} {name : String} {captured : Bool}
    {line : Nat} (hs : Collects count s t env values vs) (hslot : env.slots[i]? = some id)
    (hrest : Leads count' ⟨t.setCell id (head vs), .exec rest env, k⟩ last) :
    Leads (count' + 2 + count + 1)
      ⟨s, .exec (.assign [.slot i name captured] values line :: rest) env, k⟩ last := by
  obtain ⟨n, hn, hleads⟩ := hs [] (.places [.slot i name captured] values.length line rest env :: k)
  refine (hn.loads values).leads (fun _ => rfl) (fun h => h) (hleads.trans ?_)
  have hstore : Becomes (fun t => give t vs
      (.places [.slot i name captured] values.length line rest env) k) t k
      ⟨t.setCell id (head vs), .give [], .seq rest env :: k⟩ := by
    refine .of_eq (fun _ _ => ?_) (fun h => h) rfl rfl
    simp only [give, pairTargets, planStores, List.nil_append, store, hslot]
    rfl
  refine hstore.leads (fun _ => rfl) (fun h => h) ?_
  exact hrest.after (fun _ _ => rfl) ⟨fun h => h, rfl, rfl⟩

theorem leads_end (hrest : Leads count ⟨s, .exec rest env, k⟩ last) {env' : Env} :
    Leads (count + 2) ⟨s, .exec [] env', .seq rest env :: k⟩ last := by
  have hgive : Leads (count + 1) ⟨s, .give [], .seq rest env :: k⟩ last :=
    hrest.after (fun _ _ => rfl) ⟨id, rfl, rfl⟩
  exact hgive.after (fun _ _ => rfl) ⟨id, rfl, rfl⟩

/-- The values of a return are those of the function. -/
theorem leads_result {e : Expr} (he : isCall e = false) (hs : Collects count s t env [e] vs)
    (site : Site) :
    Leads (1 + count + 1) ⟨s, .exec [.result [e]] env, .activation site :: k⟩ ⟨t, .give vs, k⟩ := by
  obtain ⟨n, hn, hleads⟩ := hs [] (.result :: .activation site :: k)
  refine hn.tick.leads (fun s => ?_) id (hleads.trans ?_)
  · simp only [step, exec, he, Bool.false_eq_true, if_false]
  · exact .one (fun held instructions => ⟨held, instructions, rfl⟩) ⟨id, rfl, rfl⟩

end Statements

end DiceHost.Engine
