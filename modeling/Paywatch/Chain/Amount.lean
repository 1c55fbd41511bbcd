import Paywatch.Chain.Quantity
import Paywatch.Text.Blank

/-!
# Amounts

Amounts of a token in its smallest units. An amount fits into 128 bits: addition
saturates or reports that it does not fit, subtraction stops at zero.
-/

namespace Paywatch

/-- An amount in the smallest units of its token. -/
structure Amount where
  units : Nat
  units_lt : units < 1 <<< 128
deriving DecidableEq

namespace Amount

/-- The amount of so many units, if it fits. -/
def ofNat? (n : Nat) : Option Amount :=
  if h : n < 1 <<< 128 then some ⟨n, h⟩ else none

/-- The amount of so many units, or the largest amount. -/
def clamp (n : Nat) : Amount := ⟨min n (1 <<< 128 - 1), by omega⟩

def zero : Amount := ⟨0, by decide⟩

def max : Amount := ⟨1 <<< 128 - 1, by decide⟩

instance : Inhabited Amount := ⟨zero⟩

instance : Repr Amount := ⟨fun a _ => repr a.units⟩

instance : LT Amount := ⟨fun a b => a.units < b.units⟩
instance : LE Amount := ⟨fun a b => a.units ≤ b.units⟩
instance (a b : Amount) : Decidable (a < b) :=
  inferInstanceAs (Decidable (a.units < b.units))
instance (a b : Amount) : Decidable (a ≤ b) :=
  inferInstanceAs (Decidable (a.units ≤ b.units))

def isZero (a : Amount) : Bool := a.units == 0

/-- The sum, or the largest amount if the sum does not fit. -/
def addCapped (a b : Amount) : Amount := clamp (a.units + b.units)

/-- The sum, if it fits. -/
def add? (a b : Amount) : Option Amount := ofNat? (a.units + b.units)

/-- The difference, or zero if `b` is larger. -/
def sub (a b : Amount) : Amount :=
  ⟨a.units - b.units, Nat.lt_of_le_of_lt (Nat.sub_le ..) a.units_lt⟩

/-- The distance between two amounts. -/
def distance (a b : Amount) : Amount := if a ≤ b then b.sub a else a.sub b

/-- The decimal form of an amount. -/
def text (a : Amount) : String := Text.decimal a.units

/-- Reads a decimal number, with blanks around it, of at most 128 bits. -/
def ofText (s : String) : Except ChainDataError Amount :=
  match (Text.Digits.readUnsigned 10 (1 <<< 128) (Text.trim s.toList)).bind ofNat? with
  | some a => .ok a
  | none => .error (.invalidQuantity s)

/-- The amount that a list of hexadecimal digits without zeros in front
stands for. A list of more than 32 bytes overflows whatever it holds; `text`
is named in the errors. -/
def ofSignificantDigits (text : String) (cs : List Char) : Except ChainDataError Amount :=
  if cs.isEmpty then .ok zero
  else if 32 < Text.byteCount cs then .error (.overflow text)
  else match (Text.Digits.readUnsigned 16 (1 <<< 128) cs).bind ofNat? with
    | some a => .ok a
    | none => .error (.invalidQuantity text)

/-- Reads a hexadecimal quantity; zeros in front are free, and no digit at all is zero. -/
def ofQuantity (text : String) : Except ChainDataError Amount :=
  ofSignificantDigits text ((Quantity.digits text).dropWhile (· == '0'))

@[simp] theorem units_zero : zero.units = 0 := rfl

@[simp] theorem units_addCapped (a b : Amount) :
    (a.addCapped b).units = min (a.units + b.units) (1 <<< 128 - 1) := rfl

@[simp] theorem units_sub (a b : Amount) : (a.sub b).units = a.units - b.units := rfl

theorem ofNat?_units (a : Amount) : ofNat? a.units = some a := dif_pos a.units_lt

theorem units_inj {a b : Amount} : a.units = b.units ↔ a = b := by
  constructor
  · intro same
    cases a
    cases b
    cases same
    rfl
  · exact congrArg _

theorem ofNat?_eq_some {n : Nat} {a : Amount} : ofNat? n = some a ↔ n = a.units := by
  unfold ofNat?
  obtain ⟨units, units_lt⟩ := a
  split
  · simp
  · rename_i large
    simp only [reduceCtorEq, false_iff]
    rintro rfl
    exact large units_lt

/-- What fits is not capped. -/
theorem clamp_units (a : Amount) : clamp a.units = a :=
  units_inj.1 (Nat.min_eq_left (Nat.le_sub_one_of_lt a.units_lt))

end Amount

end Paywatch
