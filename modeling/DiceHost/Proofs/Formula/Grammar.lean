import DiceHost.Formula.Parse
import Mathlib.Logic.ExistsUnique

/-! # The grammar of formulas

`Derives` is the grammar with the tree that each derivation builds. What the reader takes
derives from the grammar. Conversely every derivation is read with its own tree, as long as
the words after it do not go on with an operator. So the reader accepts exactly the sequences
of words with a derivation, and no sequence has two trees.
-/
namespace DiceHost.Formula

/-! ## The grammar -/

/-- The nonterminals, the one that binds loosest first. -/
inductive Nonterminal where
  | expr | term | unary | atom
deriving DecidableEq, Repr

inductive JoinsTerms : Token → Op → Prop where
  | plus : JoinsTerms .plus .add
  | minus : JoinsTerms .minus .sub

inductive JoinsFactors : Token → Op → Prop where
  | star : JoinsFactors .star .mul
  | slash : JoinsFactors .slash .div
  | percent : JoinsFactors .percent .rem

/-- The words derive from the nonterminal, and this is the tree. An operator joins what stands
before it, however long, to a single operand after it. -/
inductive Derives : Nonterminal → List Token → Expr → Prop where
  | term {words : List Token} {e : Expr} (h : Derives .term words e) : Derives .expr words e
  | sum {before after : List Token} {token : Token} {op : Op} {left right : Expr}
      (hleft : Derives .expr before left) (htoken : JoinsTerms token op)
      (hright : Derives .term after right) :
      Derives .expr (before ++ token :: after) (.binary op left right)
  | unary {words : List Token} {e : Expr} (h : Derives .unary words e) : Derives .term words e
  | product {before after : List Token} {token : Token} {op : Op} {left right : Expr}
      (hleft : Derives .term before left) (htoken : JoinsFactors token op)
      (hright : Derives .unary after right) :
      Derives .term (before ++ token :: after) (.binary op left right)
  | minus {words : List Token} {e : Expr} (h : Derives .unary words e) :
      Derives .unary (.minus :: words) (.neg e)
  | plus {words : List Token} {e : Expr} (h : Derives .unary words e) :
      Derives .unary (.plus :: words) e
  | atom {words : List Token} {e : Expr} (h : Derives .atom words e) : Derives .unary words e
  | number (x : Float) : Derives .atom [.number x] (.number x)
  | field (name : String) : Derives .atom [.ident "this", .dot, .ident name] (.field name)
  | group {words : List Token} {e : Expr} (h : Derives .expr words e) :
      Derives .atom (.opening :: (words ++ [.closing])) e

theorem sumOp?_eq_some {token : Token} {op : Op} : sumOp? token = some op ↔ JoinsTerms token op := by
  constructor
  · intro h
    cases token <;> cases h
    · exact .plus
    · exact .minus
  · intro h
    cases h <;> rfl

theorem productOp?_eq_some {token : Token} {op : Op} :
    productOp? token = some op ↔ JoinsFactors token op := by
  constructor
  · intro h
    cases token <;> cases h
    · exact .star
    · exact .slash
    · exact .percent
  · intro h
    cases h <;> rfl

/-! ## What is read derives from the grammar -/

/-- Whatever the reader takes off the words derives from the nonterminal. -/
def Sound (part : Nonterminal) (reader : Reader) : Prop :=
  ∀ words e rest, reader words = .ok (e, rest) →
    ∃ taken, words = taken ++ rest ∧ Derives part taken e

section Sound
variable {inner : Reader}

theorem sound_atom (hinner : Sound .expr inner) : Sound .atom (atom inner) := by
  intro words e rest h
  unfold atom at h
  split at h
  · cases h
  · next x tail =>
    cases h
    exact ⟨[.number x], rfl, .number x⟩
  · next word tail =>
    split at h
    · next hthis =>
      subst hthis
      split at h
      · next name tail =>
        cases h
        exact ⟨_, rfl, .field name⟩
      · cases h
      · cases h
    · cases h
  · next tail =>
    split at h
    · cases h
    · next e' tail' hread =>
      cases h
      obtain ⟨taken, rfl, hderives⟩ := hinner _ _ _ hread
      exact ⟨.opening :: (taken ++ [.closing]), by simp, .group hderives⟩
    · cases h
  · cases h

theorem sound_unary (hinner : Sound .expr inner) : Sound .unary (unary inner) := by
  intro words
  fun_induction unary inner words with
  | case1 words e after hread ih =>
    intro e' rest h
    cases h
    obtain ⟨taken, rfl, hderives⟩ := ih _ _ hread
    exact ⟨.minus :: taken, rfl, .minus hderives⟩
  | case2 =>
    intro e' rest h
    cases h
  | case3 words ih =>
    intro e rest h
    obtain ⟨taken, rfl, hderives⟩ := ih _ _ h
    exact ⟨.plus :: taken, rfl, .plus hderives⟩
  | case4 words =>
    intro e rest h
    obtain ⟨taken, htaken, hderives⟩ := sound_atom hinner _ _ _ h
    exact ⟨taken, htaken, .atom hderives⟩

/-- A part of the wide nonterminal is one of the narrow one, or joins one to it. -/
structure Joins (op? : Token → Option Op) (narrow wide : Nonterminal) : Prop where
  single : ∀ {words e}, Derives narrow words e → Derives wide words e
  join : ∀ {before after token op left right}, Derives wide before left → op? token = some op →
    Derives narrow after right → Derives wide (before ++ token :: after) (.binary op left right)

theorem joins_factors : Joins productOp? .unary .term :=
  ⟨.unary, fun hleft hop hright => .product hleft (productOp?_eq_some.mp hop) hright⟩

theorem joins_terms : Joins sumOp? .term .expr :=
  ⟨.term, fun hleft hop hright => .sum hleft (sumOp?_eq_some.mp hop) hright⟩

section Chain
variable {narrow wide : Nonterminal} {op? : Token → Option Op} {operand : Reader}
  (hjoins : Joins op? narrow wide) (hoperand : Sound narrow operand)
include hjoins hoperand

theorem sound_chain {fuel : Nat} {before words rest : List Token} {left e : Expr}
    (hleft : Derives wide before left)
    (h : chain op? operand fuel left words = .ok (e, rest)) :
    ∃ taken, words = taken ++ rest ∧ Derives wide (before ++ taken) e := by
  induction fuel generalizing before left words with
  | zero =>
    cases h
    exact ⟨[], rfl, by simpa using hleft⟩
  | succ fuel ih =>
    cases words with
    | nil =>
      cases h
      exact ⟨[], rfl, by simpa using hleft⟩
    | cons token tail =>
      unfold chain at h
      split at h
      · cases h
        exact ⟨[], rfl, by simpa using hleft⟩
      · next op hop =>
        split at h
        · next right after hread =>
          obtain ⟨middle, rfl, hright⟩ := hoperand _ _ _ hread
          obtain ⟨taken, rfl, hderives⟩ := ih (hjoins.join hleft hop hright) h
          refine ⟨token :: (middle ++ taken), by simp, ?_⟩
          simpa using hderives
        · cases h

theorem sound_operands {limit : Nat} {words after rest : List Token} {left e : Expr}
    (hread : operand words = .ok (left, after))
    (h : chain op? operand limit left after = .ok (e, rest)) :
    ∃ taken, words = taken ++ rest ∧ Derives wide taken e := by
  obtain ⟨first, rfl, hfirst⟩ := hoperand _ _ _ hread
  obtain ⟨taken, rfl, hderives⟩ := sound_chain hjoins hoperand (hjoins.single hfirst) h
  exact ⟨first ++ taken, by simp, hderives⟩

end Chain

theorem sound_term (hinner : Sound .expr inner) (limit : Nat) :
    Sound .term (term inner limit) := by
  intro words e rest h
  unfold term at h
  split at h
  · next left after hread => exact sound_operands joins_factors (sound_unary hinner) hread h
  · cases h

theorem sound_expr (hinner : Sound .expr inner) (limit : Nat) :
    Sound .expr (expr inner limit) := by
  intro words e rest h
  unfold expr at h
  split at h
  · next left after hread => exact sound_operands joins_terms (sound_term hinner limit) hread h
  · cases h

theorem sound_exprAt (limit depth : Nat) : Sound .expr (exprAt limit depth) := by
  induction depth with
  | zero =>
    intro words e rest h
    cases h
  | succ depth ih => exact sound_expr ih limit

end Sound

/-! ## What derives from the grammar is read -/

/-- The words do not go on with one of the operators. -/
def Ends (op? : Token → Option Op) (words : List Token) : Prop :=
  ∀ token ∈ words.head?, op? token = none

section Chain
variable {op? : Token → Option Op} {operand : Reader} {words rest : List Token} {e : Expr}

theorem chain_ends (h : Ends op? rest) (fuel : Nat) :
    chain op? operand fuel e rest = .ok (e, rest) := by
  cases fuel with
  | zero => rfl
  | succ fuel =>
    cases rest with
    | nil => rfl
    | cons token tail => simp [chain, h token rfl]

/-- The first operand is read, and after some more of them the reader is past the words. -/
def Leads (op? : Token → Option Op) (operand : Reader) (words rest : List Token) (e : Expr) :
    Prop :=
  ∃ left middle, operand (words ++ rest) = .ok (left, middle) ∧ ∃ steps ≤ words.length,
    ∀ fuel, chain op? operand (fuel + steps) left middle = chain op? operand fuel e rest

theorem leads_operand (h : operand (words ++ rest) = .ok (e, rest)) :
    Leads op? operand words rest e :=
  ⟨e, rest, h, 0, Nat.zero_le _, fun _ => rfl⟩

theorem Leads.join {before : List Token} {left right : Expr} {token : Token} {op : Op}
    (h : Leads op? operand before (token :: (words ++ rest)) left) (hop : op? token = some op)
    (hread : operand (words ++ rest) = .ok (right, rest)) :
    Leads op? operand (before ++ token :: words) rest (.binary op left right) := by
  obtain ⟨first, middle, hfirst, steps, hsteps, hchain⟩ := h
  refine ⟨first, middle, by simpa using hfirst, steps + 1, ?_, fun fuel => ?_⟩
  · simp only [List.length_append, List.length_cons]
    omega
  · have hnext : chain op? operand (fuel + 1) left (token :: (words ++ rest)) =
        chain op? operand fuel (.binary op left right) rest := by
      simp [chain, hop, hread]
    have hfuel : fuel + (steps + 1) = fuel + 1 + steps := by omega
    rw [hfuel, hchain, hnext]

theorem Leads.read (h : Leads op? operand words rest e) (hends : Ends op? rest) {limit : Nat}
    (hlimit : words.length ≤ limit) :
    ∃ left middle, operand (words ++ rest) = .ok (left, middle) ∧
      chain op? operand limit left middle = .ok (e, rest) := by
  obtain ⟨left, middle, hread, steps, hsteps, hchain⟩ := h
  refine ⟨left, middle, hread, ?_⟩
  have hfuel : limit - steps + steps = limit := by omega
  rw [← hfuel, hchain, chain_ends hends]

end Chain

section Complete
variable {inner : Reader} {limit depth : Nat}

/-- Every derivation of an expression of fewer words is read with its tree. -/
def Complete (inner : Reader) (depth : Nat) : Prop :=
  ∀ words rest e, Derives .expr words e → words.length < depth → Ends sumOp? rest →
    Ends productOp? rest → inner (words ++ rest) = .ok (e, rest)

def IsRead (inner : Reader) (limit : Nat) : Nonterminal → List Token → Expr → Prop
  | .expr, words, e => ∀ rest, Ends productOp? rest →
    Leads sumOp? (term inner limit) words rest e
  | .term, words, e => ∀ rest, Leads productOp? (unary inner) words rest e
  | .unary, words, e => ∀ rest, unary inner (words ++ rest) = .ok (e, rest)
  | .atom, words, e => ∀ rest, atom inner (words ++ rest) = .ok (e, rest)

theorem unary_of_atom {words : List Token} {e : Expr} (h : Derives .atom words e)
    (rest : List Token) : unary inner (words ++ rest) = atom inner (words ++ rest) := by
  cases h <;> rfl

theorem term_of_leads {words rest : List Token} {e : Expr}
    (h : Leads productOp? (unary inner) words rest e) (hends : Ends productOp? rest)
    (hlimit : words.length ≤ limit) : term inner limit (words ++ rest) = .ok (e, rest) := by
  obtain ⟨left, middle, hread, hchain⟩ := h.read hends hlimit
  simp only [term, hread, hchain]

/-- Every derivation is read, if those in parentheses are. -/
theorem isRead (hinner : Complete inner depth) (hlimit : depth ≤ limit) {part : Nonterminal}
    {words : List Token} {e : Expr} (h : Derives part words e) (hlen : words.length ≤ depth) :
    IsRead inner limit part words e := by
  induction h with
  | term h ih =>
    intro rest hends
    exact leads_operand (term_of_leads (ih hlen rest) hends (Nat.le_trans hlen hlimit))
  | @sum before after token op left right hleft htoken hright ihl ihr =>
    -- the terms before the operator end at it, for it joins no factors
    rw [List.length_append, List.length_cons] at hlen
    intro rest hends
    have hproduct : Ends productOp? (token :: (after ++ rest)) := by
      rintro _ ⟨⟩
      cases htoken <;> rfl
    have hterm : term inner limit (after ++ rest) = .ok (right, rest) :=
      term_of_leads (ihr (by omega) rest) hends (by omega)
    exact (ihl (by omega) _ hproduct).join (sumOp?_eq_some.mpr htoken) hterm
  | unary h ih =>
    intro rest
    exact leads_operand (ih hlen rest)
  | product hleft htoken hright ihl ihr =>
    rw [List.length_append, List.length_cons] at hlen
    intro rest
    exact (ihl (by omega) _).join (productOp?_eq_some.mpr htoken) (ihr (by omega) rest)
  | minus h ih =>
    rw [List.length_cons] at hlen
    intro rest
    simp only [List.cons_append, unary, ih (by omega) rest]
  | plus h ih =>
    rw [List.length_cons] at hlen
    intro rest
    exact ih (by omega) rest
  | atom h ih =>
    intro rest
    rw [unary_of_atom h]
    exact ih hlen rest
  | number x => exact fun rest => rfl
  | field name =>
    intro rest
    simp [atom]
  | @group words e h ih =>
    -- what stands in parentheses is two words shorter, so the reader inside goes far enough
    simp only [List.length_cons, List.length_append, List.length_nil] at hlen
    intro rest
    have hread : inner (words ++ .closing :: rest) = .ok (e, .closing :: rest) := by
      refine hinner _ _ _ h (by omega) ?_ ?_
      · rintro _ ⟨⟩
        rfl
      · rintro _ ⟨⟩
        rfl
    simp [atom, hread]

theorem complete_exprAt (hlimit : depth ≤ limit) : Complete (exprAt limit depth) depth := by
  induction depth with
  | zero =>
    intro words rest e h hlen
    cases hlen
  | succ depth ih =>
    intro words rest e h hlen hsum hproduct
    have hread := isRead (ih (by omega)) (by omega : depth ≤ limit) h (by omega)
    obtain ⟨left, middle, hfirst, hchain⟩ :=
      (hread rest hproduct).read hsum (by omega : words.length ≤ limit)
    simp only [exprAt, expr, hfirst, hchain]

end Complete

/-! ## Whole formulas -/

/-- A formula is read when its words are one expression with nothing after it. -/
theorem ofTokens_eq_ok {src : String} {words : List Token} {e : Expr} :
    ofTokens src words = .ok e ↔
      exprAt (words.length + 1) (words.length + 1) words = .ok (e, []) := by
  cases words with
  | nil => exact ⟨nofun, nofun⟩
  | cons token tail =>
    have hrun : ofTokens src (token :: tail) =
        (exprAt (tail.length + 2) (tail.length + 2) (token :: tail)).bind (fun found =>
          if found.2.isEmpty then .ok found.1
          else .error ("trailing input in '" ++ src ++ "'")) := rfl
    rw [hrun, List.length_cons]
    cases exprAt (tail.length + 2) (tail.length + 2) (token :: tail) with
    | error message => simp [Except.bind]
    | ok found =>
      obtain ⟨found, rest⟩ := found
      cases rest with
      | nil => simp [Except.bind]
      | cons extra rest => simp [Except.bind]

theorem derives_of_ofTokens {src : String} {words : List Token} {e : Expr}
    (h : ofTokens src words = .ok e) : Derives .expr words e := by
  obtain ⟨taken, htaken, hderives⟩ := sound_exprAt _ _ _ _ _ (ofTokens_eq_ok.mp h)
  rw [List.append_nil] at htaken
  exact htaken ▸ hderives

theorem ofTokens_of_derives (src : String) {words : List Token} {e : Expr}
    (h : Derives .expr words e) : ofTokens src words = .ok e := by
  have hends (op? : Token → Option Op) : Ends op? [] := nofun
  have hread := complete_exprAt (Nat.le_refl (words.length + 1)) words [] e h (Nat.lt_succ_self _)
    (hends _) (hends _)
  rw [List.append_nil] at hread
  exact ofTokens_eq_ok.mpr hread

/-- No words have two trees: the reader gives only one. -/
theorem Derives.unique {words : List Token} {e e' : Expr} (h : Derives .expr words e)
    (h' : Derives .expr words e') : e = e' := by
  have hread := ofTokens_of_derives "" h
  rw [ofTokens_of_derives "" h'] at hread
  exact (Except.ok.inj hread).symm

/-- Words are read as a formula with a tree if and only if they derive from the grammar with this
tree; words that derive from it have just one tree, and all others are refused. A text is read
through its words. -/
theorem reads_iff_derives (src : String) :
    (∀ words e, ofTokens src words = .ok e ↔ Derives .expr words e) ∧
      (∀ words, (∃ message, ofTokens src words = .error message) ↔
        ¬ ∃! e, Derives .expr words e) ∧
      ∀ e, parse src = .ok e ↔ ∃ words, tokens src.toList = .ok words ∧ Derives .expr words e := by
  have hread (words : List Token) (e : Expr) :
      ofTokens src words = .ok e ↔ Derives .expr words e :=
    ⟨derives_of_ofTokens, ofTokens_of_derives src⟩
  refine ⟨hread, fun words => ?_, fun e => ?_⟩
  · cases hresult : ofTokens src words with
    | ok e =>
      have hderives := (hread words e).mp hresult
      have hunique : ∃! e, Derives .expr words e := ⟨e, hderives, fun _ h => h.unique hderives⟩
      simp [hunique]
    | error message =>
      have hnone : ¬ ∃! e, Derives .expr words e := by
        rintro ⟨e, hderives, -⟩
        rw [(hread words e).mpr hderives] at hresult
        cases hresult
      simp [hnone]
  · have hrun : parse src = (tokens src.toList).bind (ofTokens src) := rfl
    rw [hrun]
    cases tokens src.toList with
    | error message => simp [Except.bind]
    | ok words => simp [Except.bind, hread]

example : ofTokens "" [.number 8, .minus, .number 2, .minus, .minus, .number 1, .star, .number 3] =
    .ok (.binary .sub (.binary .sub (.number 8) (.number 2))
      (.binary .mul (.neg (.number 1)) (.number 3))) := rfl

end DiceHost.Formula
