/-!
# Digits

Numbers as lists of digit characters, in any base up to sixteen: `Digits.write` gives
the shortest lower-case form, `Digits.read` is its inverse and takes either letter case.
`Digits.readUnsigned` is the reader for bounded numbers: one leading plus sign is
allowed, at least one digit is needed, and a value at or above the bound is refused.
-/

namespace Paywatch.Text

/-- The value of a hexadecimal digit in either letter case. -/
def digitValue? (c : Char) : Option Nat :=
  if '0' ≤ c ∧ c ≤ '9' then some (c.toNat - '0'.toNat)
  else if 'a' ≤ c ∧ c ≤ 'f' then some (c.toNat - 'a'.toNat + 10)
  else if 'A' ≤ c ∧ c ≤ 'F' then some (c.toNat - 'A'.toNat + 10)
  else none

/-- The lower-case digit for a value below sixteen. -/
def digitChar (n : Nat) : Char :=
  if n < 10 then Char.ofNat ('0'.toNat + n) else Char.ofNat ('a'.toNat + (n - 10))

/-- A hexadecimal digit, in either letter case. -/
def isHexDigit (c : Char) : Bool := (digitValue? c).isSome

/-- The lower-case form of an ASCII letter; every other character stands for itself. -/
def lowerAscii (c : Char) : Char :=
  if 'A' ≤ c ∧ c ≤ 'Z' then Char.ofNat (c.toNat + 32) else c

/-- A hexadecimal digit that is not an upper-case letter. -/
def isLowerHexDigit (c : Char) : Bool := isHexDigit c && lowerAscii c == c

namespace Digits

/-- The digits of `n`, most significant first. A base below two counts as two. -/
def write (base n : Nat) : List Char :=
  if n < max base 2 then [digitChar n]
  else write base (n / max base 2) ++ [digitChar (n % max base 2)]
termination_by n
decreasing_by exact Nat.div_lt_self (by omega) (by omega)

/-- One more digit to the right of a number. -/
def push (base : Nat) (n : Nat) (c : Char) : Option Nat :=
  match digitValue? c with
  | some d => if d < base then some (n * base + d) else none
  | none => none

/-- The value of a list of digits, where the empty list stands for zero. -/
def read (base : Nat) (cs : List Char) : Option Nat :=
  cs.foldlM (push base) 0

/-- Reads a number below `bound`: an optional plus sign and at least one digit. -/
def readUnsigned (base bound : Nat) (cs : List Char) : Option Nat :=
  let digits := match cs with
    | '+' :: rest => rest
    | _ => cs
  if digits.isEmpty then none
  else (read base digits).filter (· < bound)

end Digits

/-- The decimal form of a number. -/
def decimal (n : Nat) : String := String.ofList (Digits.write 10 n)

/-- The decimal form of a word. -/
def decimalWord (n : UInt64) : String := decimal n.toNat

/-- The lower-case hexadecimal form of a number. -/
def hexadecimal (n : Nat) : String := String.ofList (Digits.write 16 n)

/-- Exactly `width` hexadecimal digits: zeros on the left, or only the lowest digits. -/
def hexWidth (width n : Nat) : List Char :=
  (List.range width).map fun i => digitChar (n / Nat.pow 16 (width - 1 - i) % 16)

/-- Digits with zeros on the left up to `width`; longer numbers keep all their digits. -/
def padded (base width n : Nat) : List Char :=
  let digits := Digits.write base n
  List.replicate (width - digits.length) '0' ++ digits

/-- Decimal digits with zeros on the left up to `width`. -/
def decimalWidth (width n : Nat) : List Char := padded 10 width n

end Paywatch.Text
