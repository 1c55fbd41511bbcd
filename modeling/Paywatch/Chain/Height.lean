/-!
# Heights

Heights are words of 64 bits. Their sums and differences are checked: where one of them
is no word, the program panics.
-/

namespace Paywatch

/-- Distance of a block from the first block of its chain. -/
abbrev Height := UInt64

namespace Height

/-- The sum, if it is a word. -/
def plus? (h : Height) (n : UInt64) : Option Height :=
  if h.toNat + n.toNat < UInt64.size then some (h + n) else none

/-- The difference, if it is a word. -/
def minus? (h : Height) (n : UInt64) : Option Height :=
  if n ≤ h then some (h - n) else none

/-- What a panic says where a sum is no word. -/
def panicMessage : String := "attempt to add with overflow"

end Height

end Paywatch
