import Paywatch.Text.Bytes
import Paywatch.Text.Digits

/-!
# Quantities

Numbers as nodes write them: hexadecimal digits after any number of `0x` marks. The
module also holds the errors of reading any value that a node sends.
-/

namespace Paywatch

/-- Why a text is not the chain value it should be. Each cause keeps the
text it is about. -/
inductive ChainDataError where
  | invalidAddress (text : String)
  | invalidQuantity (text : String)
  | overflow (text : String)
deriving DecidableEq, Repr

namespace ChainDataError

def message : ChainDataError → String
  | invalidAddress text => "Invalid address: " ++ text
  | invalidQuantity text => "Invalid hex quantity: " ++ text
  | overflow text => "Quantity exceeds 128 bits: " ++ text

end ChainDataError

/-- Number of a chain, as wallets and nodes give it. -/
structure ChainId where
  number : UInt64
deriving DecidableEq, Repr, Hashable, Inhabited

namespace ChainId

def text (chain : ChainId) : String := Text.decimalWord chain.number

end ChainId

namespace Quantity

/-- The digits of a quantity: its text without the leading `0x` marks. -/
def digits (text : String) : List Char := Text.dropPairs '0' 'x' text.toList

/-- Reads a quantity of at most 64 bits. -/
def word (text : String) : Except ChainDataError UInt64 :=
  match Text.Digits.readUnsigned 16 UInt64.size (digits text) with
  | some n => .ok (UInt64.ofNat n)
  | none => .error (.invalidQuantity text)

end Quantity

end Paywatch
