import DiceHost.Json.Write

/-! # The characters of compact text

The writer pushes pieces onto a reversed list. Joined, they are the characters of the value:
words and numbers as they are, texts between quotes, items and fields between brackets and
braces with a comma between two of them and nothing else.
-/
namespace DiceHost.Json
open DiceHost.Decimal

/-- The characters of a text between quotes. -/
def quoteChars (s : String) : List Char := '"' :: (s.toList.flatMap escape ++ ['"'])

theorem quoteChars_append (s : String) (rest : List Char) :
    quoteChars s ++ rest = '"' :: (s.toList.flatMap escape ++ '"' :: rest) := by
  simp [quoteChars]

theorem toList_quote (s : String) : (quote s).toList = quoteChars s := String.toList_ofList

mutual
/-- The characters of the compact text of a value. -/
def compactChars : Json → List Char
  | .null => ['n', 'u', 'l', 'l']
  | .bool true => ['t', 'r', 'u', 'e']
  | .bool false => ['f', 'a', 'l', 's', 'e']
  | .int n => (toString n).toList
  | .float x => if isFinite x then (jsonLayout.write x).toList else ['n', 'u', 'l', 'l']
  | .str s => quoteChars s
  | .arr items => '[' :: compactItems items
  | .obj fields => '{' :: compactFields fields

/-- The items of a list and the closing bracket. -/
def compactItems : List Json → List Char
  | [] => [']']
  | [v] => compactChars v ++ [']']
  | v :: rest => compactChars v ++ ',' :: compactItems rest

/-- The fields of an object and the closing brace. -/
def compactFields : List (String × Json) → List Char
  | [] => ['}']
  | [(k, v)] => quoteChars k ++ ':' :: (compactChars v ++ ['}'])
  | (k, v) :: rest => quoteChars k ++ ':' :: (compactChars v ++ ',' :: compactFields rest)
end

/-- The characters of the pieces on a reversed list. -/
def joined (out : List String) : List Char := (String.join out.reverse).toList

theorem joined_cons (piece : String) (out : List String) :
    joined (piece :: out) = joined out ++ piece.toList := by
  simp [joined, String.join_append]

mutual
theorem joined_pushValue (v : Json) (out : List String) :
    joined (pushValue out v) = joined out ++ compactChars v := by
  cases v with
  | null => simp [pushValue, joined_cons, compactChars]
  | bool b => cases b <;> simp [pushValue, joined_cons, compactChars]
  | int n => simp [pushValue, joined_cons, compactChars]
  | float x =>
    by_cases h : isFinite x = true
    · simp [pushValue, joined_cons, compactChars, h]
    · simp [pushValue, joined_cons, compactChars, h]
  | str s => simp [pushValue, joined_cons, compactChars, toList_quote]
  | arr items =>
    have hitems := joined_pushItems items ("[" :: out)
    rw [joined_cons] at hitems
    rw [pushValue, joined_cons]
    simpa [compactChars] using hitems
  | obj fields =>
    have hfields := joined_pushFields fields ("\x7b" :: out)
    rw [joined_cons] at hfields
    rw [pushValue, joined_cons]
    simpa [compactChars] using hfields

theorem joined_pushItems (items : List Json) (out : List String) :
    joined (pushItems out items) ++ [']'] = joined out ++ compactItems items := by
  match items with
  | [] => simp [pushItems, compactItems]
  | [v] => simp [pushItems, compactItems, joined_pushValue v]
  | v :: w :: rest =>
    have hrest := joined_pushItems (w :: rest) ("," :: pushValue out v)
    rw [joined_cons, joined_pushValue v] at hrest
    simpa [pushItems, compactItems] using hrest

theorem joined_pushFields (fields : List (String × Json)) (out : List String) :
    joined (pushFields out fields) ++ ['}'] = joined out ++ compactFields fields := by
  match fields with
  | [] => simp [pushFields, compactFields]
  | [(k, v)] => simp [pushFields, compactFields, joined_pushValue v, joined_cons, toList_quote]
  | (k, v) :: field :: rest =>
    have hrest := joined_pushFields (field :: rest) ("," :: pushValue (":" :: quote k :: out) v)
    rw [joined_cons, joined_pushValue v] at hrest
    simpa [pushFields, compactFields, joined_cons, toList_quote] using hrest
end

theorem toList_compact (v : Json) : (compact v).toList = compactChars v := by
  have h := joined_pushValue v []
  simpa [joined, compact] using h

end DiceHost.Json
