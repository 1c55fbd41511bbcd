import Paywatch.Data.Basic

/-!
# Writing JSON

The text of a value, without blanks. Floats are written with six decimals as text, which
is how every report of this program shows them.
-/

namespace Paywatch

/-! Decimal text with a fixed number of places. -/

namespace Decimals

/-- The quotient of two numbers rounded to the nearest whole number, a
half to the even one. -/
def roundHalfEven (numerator denominator : Nat) : Nat :=
  let quotient := numerator / denominator
  let twice := 2 * (numerator % denominator)
  if twice < denominator then quotient
  else if denominator < twice then quotient + 1
  else if quotient % 2 = 0 then quotient else quotient + 1

/-- Sign, mantissa and exponent of two of a finite float. -/
def parts (x : Float) : Bool × Nat × Int :=
  let bits := x.toBits.toNat
  let exponent : Nat := (bits >>> 52) % 2048
  let fraction := bits % (1 <<< 52)
  let negative := bits >>> 63 == 1
  if exponent = 0 then (negative, fraction, -1074)
  else (negative, fraction + 1 <<< 52, (exponent : Int) - 1075)

/-- A whole number of units of `10 ^ (-places)` as a decimal text. -/
def ofUnits (places units : Nat) : String :=
  let whole := Text.decimal (units / Nat.pow 10 places)
  if places = 0 then whole
  else whole ++ "." ++
    String.ofList (Text.decimalWidth places (units % Nat.pow 10 places))

/-- A float with exactly `places` decimals. -/
def ofFloat (places : Nat) (x : Float) : String :=
  if x.isNaN then "NaN"
  else if x.isInf then (if x < 0 then "-inf" else "inf")
  else
    let (negative, mantissa, exponent) := parts x
    let scaled := mantissa * Nat.pow 10 places
    let units :=
      if 0 ≤ exponent then scaled <<< exponent.toNat
      else roundHalfEven scaled (1 <<< exponent.natAbs)
    (if negative then "-" else "") ++ ofUnits places units

end Decimals

namespace Json

/-- One character of a string. -/
def stringChar (c : Char) : List Char :=
  if c = '"' then ['\\', '"']
  else if c = '\\' then ['\\', '\\']
  else if c = '\n' then ['\\', 'n']
  else if c = '\r' then ['\\', 'r']
  else if c = '\t' then ['\\', 't']
  else if c.toNat < 32 then ['\\', 'u'] ++ Text.hexWidth 4 c.toNat
  else [c]

def string (s : String) : String :=
  String.ofList ('"' :: s.toList.flatMap stringChar ++ ['"'])

mutual

/-- The text of a value. -/
def write : Data → String
  | .null => "null"
  | .bool true => "true"
  | .bool false => "false"
  | .int n => if n < 0 then "-" ++ Text.decimal n.natAbs else Text.decimal n.toNat
  | .float x => string (Decimals.ofFloat 6 x)
  | .text s => string s
  | .plain word => string word
  | .list items => "[" ++ writeItems items ++ "]"
  | .record entries => "\x7b" ++ writeEntries entries ++ "\x7d"

/-- Items with commas between them. -/
def writeItems : List Data → String
  | [] => ""
  | [d] => write d
  | d :: e :: rest => write d ++ "," ++ writeItems (e :: rest)

/-- Entries with commas between them. -/
def writeEntries : List (String × Data) → String
  | [] => ""
  | [(name, d)] => string name ++ ":" ++ write d
  | (name, d) :: e :: rest =>
      string name ++ ":" ++ write d ++ "," ++ writeEntries (e :: rest)

end

end Json

end Paywatch
