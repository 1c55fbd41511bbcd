import Paywatch.Matching.Plan

/-!
# Notices

What the program tells its subscribers.
-/

namespace Paywatch

inductive Notice where
  | settlement (order : OrderId) (route : RouteId) (transfer : TransferId)
      (chain : ChainId) (confirmedAtHeight : Option Height)
  | blocksReverted (chain : ChainId) (fromHeight toHeight : Height)
  | depositRecorded (deposit : DepositId) (transfer : TransferId) (externalRef : String)
      (chain : ChainId)
  | chainUnavailable (chain : ChainId) (attempt : UInt32) (retryInMillis : UInt64)
  | chainHalted (chain : ChainId) (reason : String)
  | providerOnline (chain : ChainId) (endpoint : String)
  | providerOffline (chain : ChainId) (endpoint : String)
deriving DecidableEq

namespace Notice

def name : Notice → String
  | settlement .. => "settlement"
  | blocksReverted .. => "blocks_reverted"
  | depositRecorded .. => "deposit_recorded"
  | chainUnavailable .. => "chain_unavailable"
  | chainHalted .. => "chain_halted"
  | providerOnline .. => "provider_online"
  | providerOffline .. => "provider_offline"

end Notice

/-- What a committed plan is announced by: its settlements, then its deposits. -/
def Plan.notices (p : Plan) : List Notice :=
  (p.claims.map fun c => .settlement c.orderId c.routeId c.transferId c.chain
    c.confirmedAtHeight)
    ++ p.deposits.map fun d => .depositRecorded d.id d.transferId d.externalRef d.chain

end Paywatch
