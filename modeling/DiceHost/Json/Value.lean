import DiceHost.KeyTable
import DiceHost.Decimal.Numeral

/-! # Host values

Card attributes, stored data and everything that passes between scripts and the host
are JSON-shaped values. An integer lies between the least signed and the greatest
unsigned 64-bit integer and is never equal to a float. The fields of an object form a
table; `Ordered` says that every table inside a value has increasing keys, which is
how the host keeps them.
-/
namespace DiceHost

inductive Json where
  | null
  | bool (b : Bool)
  | int (n : Int)
  | float (x : Float)
  | str (s : String)
  | arr (items : List Json)
  | obj (fields : List (String × Json))
deriving Inhabited, Repr

/-- The fields of an object value. -/
abbrev Fields := KeyTable Json

namespace Json

mutual
/-- Decide whether two values are the same. -/
def decEq : (a b : Json) → Decidable (a = b)
  | null, null => isTrue rfl
  | bool a, bool b => decidable_of_iff (a = b) (by simp)
  | int a, int b => decidable_of_iff (a = b) (by simp)
  | float a, float b => decidable_of_iff (a = b) (by simp)
  | str a, str b => decidable_of_iff (a = b) (by simp)
  | arr a, arr b =>
    match decEqItems a b with
    | isTrue h => isTrue (by rw [h])
    | isFalse h => isFalse (by simpa using h)
  | obj a, obj b =>
    match decEqFields a b with
    | isTrue h => isTrue (by rw [h])
    | isFalse h => isFalse (by simpa using h)
  | null, bool _ => isFalse (by simp) | null, int _ => isFalse (by simp)
  | null, float _ => isFalse (by simp) | null, str _ => isFalse (by simp)
  | null, arr _ => isFalse (by simp) | null, obj _ => isFalse (by simp)
  | bool _, null => isFalse (by simp) | bool _, int _ => isFalse (by simp)
  | bool _, float _ => isFalse (by simp) | bool _, str _ => isFalse (by simp)
  | bool _, arr _ => isFalse (by simp) | bool _, obj _ => isFalse (by simp)
  | int _, null => isFalse (by simp) | int _, bool _ => isFalse (by simp)
  | int _, float _ => isFalse (by simp) | int _, str _ => isFalse (by simp)
  | int _, arr _ => isFalse (by simp) | int _, obj _ => isFalse (by simp)
  | float _, null => isFalse (by simp) | float _, bool _ => isFalse (by simp)
  | float _, int _ => isFalse (by simp) | float _, str _ => isFalse (by simp)
  | float _, arr _ => isFalse (by simp) | float _, obj _ => isFalse (by simp)
  | str _, null => isFalse (by simp) | str _, bool _ => isFalse (by simp)
  | str _, int _ => isFalse (by simp) | str _, float _ => isFalse (by simp)
  | str _, arr _ => isFalse (by simp) | str _, obj _ => isFalse (by simp)
  | arr _, null => isFalse (by simp) | arr _, bool _ => isFalse (by simp)
  | arr _, int _ => isFalse (by simp) | arr _, float _ => isFalse (by simp)
  | arr _, str _ => isFalse (by simp) | arr _, obj _ => isFalse (by simp)
  | obj _, null => isFalse (by simp) | obj _, bool _ => isFalse (by simp)
  | obj _, int _ => isFalse (by simp) | obj _, float _ => isFalse (by simp)
  | obj _, str _ => isFalse (by simp) | obj _, arr _ => isFalse (by simp)

def decEqItems : (a b : List Json) → Decidable (a = b)
  | [], [] => isTrue rfl
  | [], _ :: _ => isFalse (by simp)
  | _ :: _, [] => isFalse (by simp)
  | a :: as, b :: bs =>
    match decEq a b, decEqItems as bs with
    | isTrue h, isTrue hs => isTrue (by rw [h, hs])
    | isFalse h, _ => isFalse (by simp [h])
    | _, isFalse hs => isFalse (by simp [hs])

def decEqFields : (a b : List (String × Json)) → Decidable (a = b)
  | [], [] => isTrue rfl
  | [], _ :: _ => isFalse (by simp)
  | _ :: _, [] => isFalse (by simp)
  | (k, a) :: as, (l, b) :: bs =>
    match decEq a b, decEqFields as bs with
    | isTrue h, isTrue hs =>
      if hk : k = l then isTrue (by rw [h, hs, hk]) else isFalse (by simp [hk])
    | isFalse h, _ => isFalse (by simp [h])
    | _, isFalse hs => isFalse (by simp [hs])
end

instance : DecidableEq Json := decEq

mutual
/-- The two values compare equal; floats compare as numbers, so the two zeros agree. -/
def same : Json → Json → Bool
  | null, null => true
  | bool a, bool b => a == b
  | int a, int b => a == b
  | float a, float b => a == b
  | str a, str b => a == b
  | arr a, arr b => sameItems a b
  | obj a, obj b => sameFields a b
  | _, _ => false

def sameItems : List Json → List Json → Bool
  | [], [] => true
  | a :: as, b :: bs => same a b && sameItems as bs
  | _, _ => false

def sameFields : List (String × Json) → List (String × Json) → Bool
  | [], [] => true
  | (k, a) :: as, (l, b) :: bs => k == l && same a b && sameFields as bs
  | _, _ => false
end

mutual
/-- The nesting of arrays and objects. -/
def depth : Json → Nat
  | arr items => depthItems items + 1
  | obj fields => depthFields fields + 1
  | _ => 0

def depthItems : List Json → Nat
  | [] => 0
  | v :: rest => max (depth v) (depthItems rest)

def depthFields : List (String × Json) → Nat
  | [] => 0
  | (_, v) :: rest => max (depth v) (depthFields rest)
end

mutual
/-- Every object inside the value has increasing keys. -/
def Ordered : Json → Prop
  | arr items => OrderedItems items
  | obj fields => KeyTable.Ordered fields ∧ OrderedFields fields
  | _ => True

def OrderedItems : List Json → Prop
  | [] => True
  | v :: rest => Ordered v ∧ OrderedItems rest

def OrderedFields : List (String × Json) → Prop
  | [] => True
  | (_, v) :: rest => Ordered v ∧ OrderedFields rest
end

mutual
/-- Order the fields of every object; of two fields with one key the later stays. -/
def order : Json → Json
  | arr items => arr (orderItems items)
  | obj fields => obj (KeyTable.ofList (orderFields fields))
  | v => v

def orderItems : List Json → List Json
  | [] => []
  | v :: rest => order v :: orderItems rest

def orderFields : List (String × Json) → List (String × Json)
  | [] => []
  | (k, v) :: rest => (k, order v) :: orderFields rest
end

/-- The fields of an object; other values have none. -/
def fields : Json → Fields
  | obj fs => fs
  | _ => []

/-- The value of a float, or null when it is not finite. -/
def ofFloat (x : Float) : Json := if Decimal.isFinite x then float x else null

def text? : Json → Option String
  | str s => some s
  | _ => none

end Json
end DiceHost
