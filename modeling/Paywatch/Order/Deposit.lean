import Paywatch.Transfer.Basic

/-!
# Deposits

A deposit tracker watches an address on behalf of somebody outside; a transfer into the
address is recorded as a deposit under the reference of the tracker.
-/

namespace Paywatch

structure DepositTracker where
  id : TrackerId
  externalRef : String
  chain : ChainId
  address : Address
  /-- The only token that counts; any token, if there is none. -/
  token : Option Token
  createdAt : Instant
deriving DecidableEq

namespace DepositTracker

/-- The transfer pays into the tracker. -/
def accepts (tracker : DepositTracker) (t : Transfer) : Bool :=
  match t.origin with
  | .blockchain origin =>
    origin.chain == tracker.chain && t.receiver.address? == some tracker.address
      && tracker.token.all (· == t.token)
  | _ => false

end DepositTracker

structure Deposit where
  id : DepositId
  trackerId : TrackerId
  externalRef : String
  transferId : TransferId
  chain : ChainId
  height : Option Height
  createdAt : Instant
deriving DecidableEq

end Paywatch
