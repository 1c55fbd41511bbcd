import Paywatch.Head.Range
import Paywatch.Transfer.Basic

/-!
# The life of on-chain transfers

As the head of a chain moves on, pending transfers that lie deep enough below it are
confirmed; a reorganisation reverts the pending transfers of the blocks it takes back.
Confirmed transfers are final: a reorganisation keeps them and says so.
-/

namespace Paywatch

/-- A block at `origin` lies `depth` blocks below `head`; never, if the
sum leaves 64 bits. -/
def isDue (origin head : Height) (depth : UInt64) : Bool :=
  origin.toNat + depth.toNat < 1 <<< 64 && origin.toNat + depth.toNat ≤ head.toNat

namespace Transfer

/-- The transfer as confirmed under `head`, if it is pending, on the chain and due. -/
def confirmDue? (depth : UInt64) (head : Height) (now : Instant) (t : Transfer) :
    Option Transfer :=
  match t.status, t.originHeight with
  | .pending, some origin =>
    if isDue origin head depth then
      match t.confirm ⟨now, some head⟩ with
      | .ok confirmed => some confirmed
      | .error _ => none
    else none
  | _, _ => none

/-- The on-chain transfer lies in the range. -/
def inRange (range : RevertedRange) (t : Transfer) : Bool :=
  match t.originHeight with
  | some origin => t.chain == range.chain && range.contains origin
  | none => false

/-- The transfer as reverted by a reorganisation, if it is pending and
lies in the range. -/
def revertIn? (range : RevertedRange) (t : Transfer) : Option Transfer :=
  if t.inRange range && t.status == .pending then
    match t.revert with
    | .ok reverted => some reverted
    | .error _ => none
  else none

/-- Confirms what is due: the list afterwards, and the identifiers of what changed. -/
def confirmAllDue (depth : UInt64) (head : Height) (now : Instant) (ts : List Transfer) :
    List Transfer × List TransferId :=
  (ts.map fun t => (t.confirmDue? depth head now).getD t,
    (ts.filterMap (·.confirmDue? depth head now)).map (·.id))

/-- Reverts a range: the list afterwards, the identifiers of what changed, and those of
confirmed transfers in the range, which stay. -/
def revertAllIn (range : RevertedRange) (ts : List Transfer) :
    List Transfer × List TransferId × List TransferId :=
  (ts.map fun t => (t.revertIn? range).getD t,
    (ts.filterMap (·.revertIn? range)).map (·.id),
    (ts.filter fun t => t.inRange range && t.status == .confirmed).map (·.id))

end Transfer

end Paywatch
