import Paywatch.Ledger.Commit

/-!
# Questions and orders to the ledger

Every access of a running task to the ledger is one call. A call is answered at once and
as a whole; between two calls of a task other tasks may make theirs.
-/

namespace Paywatch.Ledger

inductive Call where
  | acquire (chain : ChainId) (holder : String) (ttl : Nat)
  | renew (lease : Lease) (ttl : Nat)
  | release (lease : Lease)
  | watermark (chain : ChainId)
  | recentBlocks (chain : ChainId) (limit : Nat)
  | existingEvents (keys : List EventKey)
  | pendingTransfers (chain : ChainId)
  | transfersInRange (chain : ChainId) (low high : Height)
  | transferByKey (key : String)
  | unmatchedConfirmed (key : MatchKey) (token : Token)
  | matchContext (chain : ChainId) (keys : List MatchKey)
  | commit (batch : Batch)
  | commitPlan (writes : List TransferWrite) (plan : Plan)
  | insertOrder (order : Order)
  | order (id : OrderId)
  | expireOrder (id : OrderId)
  | insertRoute (route : Route)
  | route (id : RouteId)
  | routesOf (order : OrderId)
  | insertTracker (tracker : DepositTracker)

namespace Call

/-- What answers a call. -/
abbrev Reply : Call → Type
  | acquire .. => Option Lease
  | renew .. => Except LedgerError Unit
  | release _ => Unit
  | watermark _ => Option BlockRef
  | recentBlocks .. => List BlockRef
  | existingEvents _ => List EventKey
  | pendingTransfers _ => List Transfer
  | transfersInRange .. => List Transfer
  | transferByKey _ => Option Transfer
  | unmatchedConfirmed .. => List Transfer
  | matchContext .. => MatchContext
  | commit _ => Except LedgerError Unit
  | commitPlan .. => Except LedgerError Unit
  | insertOrder _ => Unit
  | order _ => Option Order
  | expireOrder _ => Except LedgerError Bool
  | insertRoute _ => Unit
  | route _ => Option Route
  | routesOf _ => List Route
  | insertTracker _ => Unit

end Call

/-- A change that may be refused: the ledger stays as it was then. -/
def attempt (l : Ledger) (result : Except LedgerError Ledger) :
    Except LedgerError Unit × Ledger :=
  match result with
  | .ok after => (.ok (), after)
  | .error e => (.error e, l)

/-- Answers a call. -/
def perform (l : Ledger) : (c : Call) → c.Reply × Ledger
  | .acquire chain holder ttl => l.acquire chain holder ttl
  | .renew lease ttl => l.attempt (l.renew lease ttl)
  | .release lease => ((), l.release lease)
  | .watermark chain => (l.watermark chain, l)
  | .recentBlocks chain limit => (l.recentBlocks chain limit, l)
  | .existingEvents keys => (l.existingEvents keys, l)
  | .pendingTransfers chain => (l.pendingTransfers chain, l)
  | .transfersInRange chain low high => (l.transfersInRange chain low high, l)
  | .transferByKey key => (l.transferByKey key, l)
  | .unmatchedConfirmed key token => (l.unmatchedConfirmed key token, l)
  | .matchContext chain keys => (l.matchContext chain keys, l)
  | .commit batch => l.attempt (l.commit batch)
  | .commitPlan writes plan => l.attempt (l.commitPlan writes plan)
  | .insertOrder o => ((), l.insertOrder o)
  | .order id => (l.orders.get? id, l)
  | .expireOrder id =>
    match l.expireOrder id with
    | .ok (wasOpen, after) => (.ok wasOpen, after)
    | .error e => (.error e, l)
  | .insertRoute r => ((), l.insertRoute r)
  | .route id => (l.routes.get? id, l)
  | .routesOf order => (l.routesOf order, l)
  | .insertTracker t => ((), l.insertTracker t)

end Paywatch.Ledger
