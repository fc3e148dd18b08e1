import DiceHost.Decimal.Digits

/-! # Writing doubles

Every text format the host reads or writes has its own conventions: where the
positional form ends, whether a positive exponent carries a sign, and what the
values that are not numbers look like. A `Layout` records them.
-/
namespace DiceHost.Decimal

/-- The conventions of one text format. -/
structure Layout where
  /-- the least decimal exponent written without `e` -/
  least : Int
  /-- the greatest decimal exponent written without `e` -/
  greatest : Int
  /-- positive exponents carry a plus sign -/
  signed : Bool
  /-- whole numbers end in `.0` -/
  pointed : Bool
  infinity : String
  notANumber : String

def Digits.parts (d : Digits) : List Char × List Char :=
  if d.exponent < 0 then
    (['0'], List.replicate (-d.exponent - 1).toNat '0' ++ d.digits)
  else
    let width := d.exponent.toNat + 1
    (d.digits.take width ++ List.replicate (width - d.digits.length) '0', d.digits.drop width)

def Digits.positional (d : Digits) (pointed : Bool) : List Char :=
  match d.parts with
  | (whole, []) => if pointed then whole ++ ['.', '0'] else whole
  | (whole, fraction) => whole ++ '.' :: fraction

def intDigits (n : Int) (signed : Bool) : List Char :=
  if n < 0 then '-' :: natDigits n.natAbs
  else if signed then '+' :: natDigits n.natAbs
  else natDigits n.natAbs

/-- The form with one digit before the point and an exponent. -/
def Digits.scientific (d : Digits) (signed : Bool) : List Char :=
  match d.digits with
  | [] => []
  | lead :: [] => lead :: 'e' :: intDigits d.exponent signed
  | lead :: rest => lead :: '.' :: (rest ++ 'e' :: intDigits d.exponent signed)

/-- Write a double in a layout. -/
def Layout.write (layout : Layout) (x : Float) : String :=
  match ofFloat? x with
  | none =>
    if isNaN x then layout.notANumber
    else if signBit x then "-" ++ layout.infinity else layout.infinity
  | some b =>
    let body :=
      if b.mantissa = 0 then if layout.pointed then ['0', '.', '0'] else ['0']
      else
        let d := shortest b
        if layout.least ≤ d.exponent ∧ d.exponent ≤ layout.greatest then
          d.positional layout.pointed
        else d.scientific layout.signed
    String.ofList (if b.negative then '-' :: body else body)

/-- Numbers inside table literals. -/
def literalLayout : Layout := ⟨-4, 15, false, true, "inf", "NaN"⟩

/-- Numbers inside JSON. -/
def jsonLayout : Layout := ⟨-5, 15, true, true, "null", "null"⟩

/-- Numbers inside rulebook documents. -/
def yamlLayout : Layout := ⟨-5, 15, false, true, ".inf", ".nan"⟩

/-- Numbers in running text: never an exponent. -/
def plainLayout : Layout := ⟨-400, 400, false, false, "inf", "NaN"⟩

/-- Two digits at least, after a sign. -/
def paddedExponent (n : Int) : List Char :=
  let ds := natDigits n.natAbs
  (if n < 0 then '-' else '+') :: (if ds.length < 2 then '0' :: ds else ds)

/-- Fourteen significant digits, the way scripts print a float. -/
def significant (x : Float) : String :=
  match ofFloat? x with
  | none => if isNaN x then "-nan" else if signBit x then "-inf" else "inf"
  | some b =>
    let body :=
      if b.mantissa = 0 then ['0', '.', '0']
      else
        let d := rounded 14 b
        if -4 ≤ d.exponent ∧ d.exponent < 14 then d.positional true
        else
          match d.digits with
          | [] => []
          | lead :: [] => lead :: 'e' :: paddedExponent d.exponent
          | lead :: rest => lead :: '.' :: (rest ++ 'e' :: paddedExponent d.exponent)
    String.ofList (if b.negative then '-' :: body else body)

end DiceHost.Decimal
