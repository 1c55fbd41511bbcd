import Paywatch.Text.Digits

/-!
# Structured data

The values that documents hold, whatever their notation. A document with unquoted words
keeps such a word as `Data.plain`, and the reader who knows what should stand there
decides its meaning.  The readers of this module take a value apart; they give `none`
for a value of another kind.
-/

namespace Paywatch

inductive Data where
  | null
  | bool (value : Bool)
  | int (value : Int)
  | float (value : Float)
  | text (value : String)
  /-- An unquoted word. -/
  | plain (word : String)
  | list (items : List Data)
  /-- Entries in the order written; a name may be repeated. -/
  | record (entries : List (String × Data))
deriving Inhabited

namespace Data

def ofWord (n : UInt64) : Data := .int n.toNat
def ofNat (n : Nat) : Data := .int n

/-- A value or null. -/
def ofOption {α : Type} (write : α → Data) : Option α → Data
  | some a => write a
  | none => .null

def ofList {α : Type} (write : α → Data) (xs : List α) : Data := .list (xs.map write)

/-- The word is one of the spellings of nothing. -/
def isNullWord (word : String) : Bool :=
  word == "" || word == "~" || word == "null" || word == "Null" || word == "NULL"

/-- Digits after a needless zero are no number. -/
def isPaddedNumber (cs : List Char) : Bool :=
  let digits := match cs with
    | '+' :: rest => rest
    | '-' :: rest => rest
    | _ => cs
  match digits with
  | '0' :: c :: rest => (c :: rest).all fun d => '0' ≤ d && d ≤ '9'
  | _ => false

/-- The number that an unquoted word stands for, if it is not negative: decimal, or
hexadecimal, octal or binary behind its mark. -/
def plainNat? (word : String) : Option Nat :=
  let cs := word.toList
  let body := match cs with
    | '+' :: rest => rest
    | _ => cs
  let digits (base : Nat) (cs : List Char) : Option Nat :=
    if cs.isEmpty then none else Text.Digits.read base cs
  let marked := match body with
    | '0' :: 'x' :: rest => digits 16 rest
    | '0' :: 'o' :: rest => digits 8 rest
    | '0' :: 'b' :: rest => digits 2 rest
    | _ => none
  match marked with
  | some n => some n
  | none => if isPaddedNumber cs then none else digits 10 body

/-- The digits, point and exponent of a decimal number: whole digits, fraction digits
and the exponent of ten. -/
def decimalParts? (cs : List Char) : Option (List Char × List Char × Int) :=
  let isDigit (c : Char) : Bool := '0' ≤ c && c ≤ '9'
  let whole := cs.takeWhile isDigit
  let rest := cs.dropWhile isDigit
  let (fraction, rest) := match rest with
    | '.' :: tail => (tail.takeWhile isDigit, tail.dropWhile isDigit)
    | _ => ([], rest)
  if whole.isEmpty && fraction.isEmpty then none
  else match rest with
    | [] => some (whole, fraction, 0)
    | e :: tail =>
      if e = 'e' ∨ e = 'E' then
        let (negative, digits) : Bool × List Char := match tail with
          | '+' :: ds => (false, ds)
          | '-' :: ds => (true, ds)
          | ds => (false, ds)
        if digits.isEmpty then none
        else (Text.Digits.read 10 digits).map fun n =>
          (whole, fraction, if negative then -(n : Int) else (n : Int))
      else none

/-- The nearest float to `digits · 10 ^ exponent`, if it is finite. -/
def scientific? (negative : Bool) (digits : Nat) (exponent : Int) : Option Float :=
  let size := (Text.Digits.write 10 digits).length
  let magnitude : Option Float :=
    if digits = 0 then some 0
    else if 400 < exponent + size then none
    else if exponent + size < -400 then some 0
    else if 0 ≤ exponent then some (Float.ofScientific digits false exponent.toNat)
    else some (Float.ofScientific digits true exponent.natAbs)
  match magnitude with
  | some x => if x.isInf then none else some (if negative then -x else x)
  | none => none

/-- The float that a text of digits, point and exponent stands for. -/
def decimalFloat? (cs : List Char) : Option Float :=
  let (negative, body) : Bool × List Char := match cs with
    | '-' :: rest => (true, rest)
    | '+' :: rest => (false, rest)
    | _ => (false, cs)
  match decimalParts? body with
  | some (whole, fraction, exponent) =>
    match Text.Digits.read 10 (whole ++ fraction) with
    | some digits => scientific? negative digits (exponent - fraction.length)
    | none => none
  | none => none

/-- The float that an unquoted word stands for. -/
def plainFloat? (word : String) : Option Float :=
  if word == ".inf" || word == ".Inf" || word == ".INF"
      || word == "+.inf" || word == "+.Inf" || word == "+.INF" then some (1.0 / 0.0)
  else if word == "-.inf" || word == "-.Inf" || word == "-.INF" then some (-1.0 / 0.0)
  else if word == ".nan" || word == ".NaN" || word == ".NAN" then some (0.0 / 0.0)
  else match word.toList with
    | '+' :: '-' :: _ => none
    | cs => decimalFloat? cs

/-- Nothing, where a value might stand. -/
def isNull : Data → Bool
  | null => true
  | plain word => isNullWord word
  | _ => false

def bool? : Data → Option Bool
  | bool b => some b
  | plain word =>
    if word == "true" || word == "True" || word == "TRUE" then some true
    else if word == "false" || word == "False" || word == "FALSE" then some false
    else none
  | _ => none

/-- A number from zero up to, not including, `bound`. -/
def natBelow? (bound : Nat) (d : Data) : Option Nat :=
  let n? : Option Nat := match d with
    | int n => if 0 ≤ n then some n.toNat else none
    | plain word => plainNat? word
    | _ => none
  n?.filter (· < bound)

def word? (d : Data) : Option UInt64 := (natBelow? UInt64.size d).map UInt64.ofNat

/-- A signed number of 64 bits. -/
def int64? (d : Data) : Option Int64 :=
  let n? : Option Int := match d with
    | int n => some n
    | plain word =>
      match word.toList with
      | '-' :: rest => (plainNat? (String.ofList rest)).map fun n => -(n : Int)
      | _ => (plainNat? word).map Int.ofNat
    | _ => none
  (n?.filter fun n => Int64.minValue.toInt ≤ n && n ≤ Int64.maxValue.toInt).map
    Int64.ofInt

def float? : Data → Option Float
  | float x => some x
  | int n => some (if 0 ≤ n then Float.ofNat n.toNat else -(Float.ofNat n.natAbs))
  | plain word => plainFloat? word
  | _ => none

def text? : Data → Option String
  | text s => some s
  | plain word => some word
  | _ => none

/-- Nothing, or a value that `read` takes. -/
def option? {α : Type} (read : Data → Option α) (d : Data) : Option (Option α) :=
  if d.isNull then some none else (read d).map some

/-- The items of a list; an empty unquoted word is an empty list. -/
def items? : Data → Option (List Data)
  | list items => some items
  | plain word => if word == "" then some [] else none
  | _ => none

/-- A list of values that `read` takes. -/
def list? {α : Type} (read : Data → Option α) (d : Data) : Option (List α) :=
  d.items?.bind fun items => items.mapM read

end Data

end Paywatch
