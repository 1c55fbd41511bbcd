import Paywatch.Chain.Quantity

/-!
# Addresses

An address is twenty bytes, written as `0x` and forty hexadecimal digits. Letters are
kept in lower case, so equal addresses are equal texts.
-/

namespace Paywatch

/-- An account or contract address by its forty digits. -/
structure Address where
  digits : List Char
  length_eq : digits.length = 40
  lower : digits.all Text.isLowerHexDigit = true
deriving DecidableEq

namespace Address

def text (a : Address) : String := String.ofList ('0' :: 'x' :: a.digits)

instance : Repr Address := ⟨fun a _ => repr a.text⟩

instance : LT Address := ⟨fun a b => a.digits < b.digits⟩
instance (a b : Address) : Decidable (a < b) :=
  inferInstanceAs (Decidable (a.digits < b.digits))

/-- The address with these digits, in either letter case. -/
def ofDigits? (cs : List Char) : Option Address :=
  let digits := cs.map Text.lowerAscii
  if h : digits.length = 40 ∧ digits.all Text.isLowerHexDigit = true then
    some ⟨digits, h.1, h.2⟩
  else none

/-- Reads `0x` or `0X` and forty digits. -/
def ofChars (cs : List Char) : Except ChainDataError Address :=
  let digits? := match cs with
    | '0' :: 'x' :: digits => ofDigits? digits
    | '0' :: 'X' :: digits => ofDigits? digits
    | _ => none
  match digits? with
  | some a => .ok a
  | none => .error (.invalidAddress (String.ofList cs))

/-- Reads `0x` or `0X` and forty digits. -/
def ofText (s : String) : Except ChainDataError Address := ofChars s.toList

/-- Reads the address out of a 32-byte word: whatever stands in the first twelve bytes
of its 64 digits is passed over. -/
def ofTopic (topic : String) : Except ChainDataError Address :=
  let body := Quantity.digits topic
  match Text.dropBytes? 24 body with
  | some tail =>
    if Text.byteCount body = 64 then ofChars ('0' :: 'x' :: tail)
    else .error (.invalidAddress topic)
  | none => .error (.invalidAddress topic)

/-- The 32-byte word of an address: twelve zero bytes in front. -/
def topic (a : Address) : String :=
  String.ofList ('0' :: 'x' :: (List.replicate 24 '0' ++ a.digits))

/-- The zero address. -/
def zero : Address := ⟨List.replicate 40 '0', by decide, by decide⟩

instance : Inhabited Address := ⟨zero⟩

end Address

end Paywatch
