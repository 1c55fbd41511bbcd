import Paywatch.Chain.Block

/-!
# Reverted ranges

The heights that a reorganisation takes back, and the last block that both branches share.
-/

namespace Paywatch

structure RevertedRange where
  chain : ChainId
  fromHeight : Height
  toHeight : Height
  forkPoint : BlockRef
deriving DecidableEq, Repr

namespace RevertedRange

def contains (r : RevertedRange) (height : Height) : Bool :=
  r.fromHeight ≤ height && height ≤ r.toHeight

/-- How many heights the range takes back, if the number is a word. -/
def depth? (r : RevertedRange) : Option UInt64 :=
  (r.toHeight.minus? r.fromHeight).bind (·.plus? 1)

end RevertedRange

end Paywatch
