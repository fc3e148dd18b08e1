import DiceHost.Engine.Code

/-! # Comparing code

Code that was read from a text can be compared, by evaluation, with code that is known. Floats have
no decidable equality and never count as the same.
-/
namespace DiceHost.Engine

mutual
/-- Two expressions are the same. -/
def Expr.agrees : Expr → Expr → Bool
  | .nil, .nil => true
  | .boolean b, .boolean b' => b == b'
  | .int n, .int n' => n == n'
  | .str s, .str s' => decide (s = s')
  | .rest, .rest => true
  | .slot i name captured, .slot i' name' captured' =>
    i == i' && name == name' && captured == captured'
  | .global name, .global name' => decide (name = name')
  | .index object key line, .index object' key' line' =>
    object.agrees object' && key.agrees key' && line == line'
  | .call callee args line, .call callee' args' line' =>
    callee.agrees callee' && Expr.agreeAll args args' && line == line'
  | .invoke object name args lookup line, .invoke object' name' args' lookup' line' =>
    object.agrees object' && decide (name = name') && Expr.agreeAll args args' &&
      lookup == lookup' && line == line'
  | .function params variadic body, .function params' variadic' body' =>
    params == params' && variadic == variadic' && Stat.agreeAll body body'
  | .table items line, .table items' line' => Item.agreeAll items items' && line == line'
  | .unary op e line, .unary op' e' line' => op == op' && e.agrees e' && line == line'
  | .arithmetic op left right line, .arithmetic op' left' right' line' =>
    op == op' && left.agrees left' && right.agrees right' && line == line'
  | .compare op left right line, .compare op' left' right' line' =>
    op == op' && left.agrees left' && right.agrees right' && line == line'
  | .equal left right wanted line, .equal left' right' wanted' line' =>
    left.agrees left' && right.agrees right' && wanted == wanted' && line == line'
  | .concat parts line, .concat parts' line' => Expr.agreeAll parts parts' && line == line'
  | .both left right, .both left' right' => left.agrees left' && right.agrees right'
  | .either left right, .either left' right' => left.agrees left' && right.agrees right'
  | .group e, .group e' => e.agrees e'
  | _, _ => false

def Expr.agreeAll : List Expr → List Expr → Bool
  | [], [] => true
  | e :: es, e' :: es' => e.agrees e' && Expr.agreeAll es es'
  | _, _ => false

def Item.agrees : Item → Item → Bool
  | .positional e, .positional e' => e.agrees e'
  | .keyed key value line, .keyed key' value' line' =>
    key.agrees key' && value.agrees value' && line == line'
  | _, _ => false

def Item.agreeAll : List Item → List Item → Bool
  | [], [] => true
  | i :: is, i' :: is' => i.agrees i' && Item.agreeAll is is'
  | _, _ => false

def Stat.agrees : Stat → Stat → Bool
  | .expression e, .expression e' => e.agrees e'
  | .locals count values, .locals count' values' => count == count' && Expr.agreeAll values values'
  | .localFunction params variadic body, .localFunction params' variadic' body' =>
    params == params' && variadic == variadic' && Stat.agreeAll body body'
  | .assign targets values line, .assign targets' values' line' =>
    Expr.agreeAll targets targets' && Expr.agreeAll values values' && line == line'
  | .block body, .block body' => Stat.agreeAll body body'
  | .cond test yes no, .cond test' yes' no' =>
    test.agrees test' && Stat.agreeAll yes yes' && Stat.agreeAll no no'
  | .whileLoop test body, .whileLoop test' body' => test.agrees test' && Stat.agreeAll body body'
  | .repeatLoop body, .repeatLoop body' => Stat.agreeAll body body'
  | .leaveIf test, .leaveIf test' => test.agrees test'
  | .countLoop start limit step body line, .countLoop start' limit' step' body' line' =>
    start.agrees start' && limit.agrees limit' && step.agrees step' && Stat.agreeAll body body' &&
      line == line'
  | .eachLoop count sources body line, .eachLoop count' sources' body' line' =>
    count == count' && Expr.agreeAll sources sources' && Stat.agreeAll body body' && line == line'
  | .leave, .leave => true
  | .result values, .result values' => Expr.agreeAll values values'
  | _, _ => false

def Stat.agreeAll : List Stat → List Stat → Bool
  | [], [] => true
  | s :: ss, s' :: ss' => s.agrees s' && Stat.agreeAll ss ss'
  | _, _ => false
end

theorem eq_of_agrees : (∀ e e' : Expr, e.agrees e' = true → e = e') ∧
    (∀ is is', Item.agreeAll is is' = true → is = is') ∧
    (∀ i i' : Item, i.agrees i' = true → i = i') ∧
    (∀ ss ss', Stat.agreeAll ss ss' = true → ss = ss') ∧
    (∀ s s' : Stat, s.agrees s' = true → s = s') ∧
    (∀ es es', Expr.agreeAll es es' = true → es = es') := by
  apply Expr.agrees.mutual_induct
  all_goals intros
  all_goals simp_all [Expr.agrees, Expr.agreeAll, Item.agrees, Item.agreeAll, Stat.agrees,
    Stat.agreeAll]

theorem eq_of_agreeAll {chunk : Option (List Stat)} {code : List Stat}
    (h : chunk.any (Stat.agreeAll code) = true) : chunk = some code := by
  obtain ⟨found, hfound, hagree⟩ := (Option.any_eq_true _ _).mp h
  rw [hfound, eq_of_agrees.2.2.2.1 _ _ hagree]

end DiceHost.Engine
