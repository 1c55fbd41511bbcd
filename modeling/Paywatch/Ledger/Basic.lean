import Paywatch.Event.Payload
import Paywatch.Head.Range
import Paywatch.Matching.Plan

/-!
# The ledger

All that the program remembers: the leases of its chains, how far each chain is
processed, the recorded events and those taken back, transfers, orders, routes, trackers
and deposits. This module holds the state and the questions to it.
-/

namespace Paywatch

/-- The exclusive right to process a chain. Tokens are given out once; none is zero. -/
structure Lease where
  chain : ChainId
  token : Nat
  holder : String
deriving DecidableEq, Repr, Inhabited

/-- A lease with the time at which it ends. -/
structure LeaseRecord where
  lease : Lease
  expiresAt : Nat
deriving DecidableEq

/-- Why the ledger refuses a change. -/
inductive LedgerError where
  | leaseLost (chain : ChainId)
  | claimConflict (route : RouteId)
  | transferConflict (id : TransferId)
  /-- The entity is named in lower case. -/
  | notFound (entity id : String)
  | corrupt (reason : String)
  | watermarkMismatch (chain : ChainId) (height : Height) (watermark : Option Height)
  /-- No error that a caller sees: there is no height after the watermark,
  and the program panics. -/
  | overflow
deriving DecidableEq, Repr

namespace LedgerError

def message : LedgerError → String
  | leaseLost chain => "Lease for chain " ++ chain.text ++ " is not held by this worker"
  | claimConflict route => "Route " ++ route.text ++ " was claimed concurrently"
  | transferConflict id => "Transfer " ++ id.text ++ " changed concurrently"
  | notFound entity id => entity ++ " not found: " ++ id
  | corrupt reason => "Corrupt row: " ++ reason
  | watermarkMismatch chain height watermark =>
    let mark := match watermark with
      | some h => "Some(" ++ Text.decimalWord h ++ ")"
      | none => "None"
    "Batch at height " ++ Text.decimalWord height ++ " does not link onto watermark " ++
      mark ++ " of chain " ++ chain.text
  | overflow => Height.panicMessage

/-- Another writer was faster; a new plan may succeed. -/
def isConflict : LedgerError → Bool
  | claimConflict _ => true
  | transferConflict _ => true
  | _ => false

end LedgerError

structure Ledger where
  /-- The clock that leases are measured by. -/
  now : Nat
  /-- How many lease tokens were given out. -/
  tokensIssued : Nat
  leases : Table ChainId LeaseRecord
  /-- The newest processed block of each chain. -/
  watermarks : Table ChainId BlockRef
  /-- The processed blocks that are still remembered, under their heights. -/
  recent : Table (ChainId × Height) BlockRef
  /-- The recorded events of the processed blocks. -/
  events : Table EventKey ChainEvent
  /-- Events that a reorganisation took back, in the order in which it did. -/
  orphans : List ChainEvent
  transfers : Table TransferId Transfer
  /-- Which transfer was recorded first under a dedupe key. -/
  recorded : Table String TransferId
  orders : Table OrderId Order
  routes : Table RouteId Route
  trackers : Table TrackerId DepositTracker
  deposits : Table DepositId Deposit
deriving Inhabited

namespace Ledger

def empty : Ledger where
  now := 0
  tokensIssued := 0
  leases := .empty
  watermarks := .empty
  recent := .empty
  events := .empty
  orphans := []
  transfers := .empty
  recorded := .empty
  orders := .empty
  routes := .empty
  trackers := .empty
  deposits := .empty

/-- Blocks this far below the watermark are remembered. -/
def retention : UInt64 := 1024

/-- The lowest height that is remembered below a watermark. -/
def retentionFloor (height : Height) : Height :=
  if height < retention then 0 else height - retention

def watermark (l : Ledger) (chain : ChainId) : Option BlockRef := l.watermarks.get? chain

/-- The hash of the processed block at a height, if it is still remembered. -/
def recordedHash? (l : Ledger) (chain : ChainId) (height : Height) : Option String :=
  (l.recent.get? (chain, height)).map (·.hash)

/-- The newest remembered blocks of a chain, at most `limit`, highest last. -/
def recentBlocks (l : Ledger) (chain : ChainId) (limit : Nat) : List BlockRef :=
  let here := l.recent.entries.filter fun e => e.1.1 == chain
  let sorted := (sortBy (fun a b => a.1.2 < b.1.2) here).map (·.2)
  sorted.drop (sorted.length - limit)

/-- The keys under which an event is recorded. -/
def existingEvents (l : Ledger) (keys : List EventKey) : List EventKey :=
  keys.filter l.events.contains

/-- Recorded events of a chain by height and log index. -/
def eventsOf (l : Ledger) (chain : ChainId) : List ChainEvent :=
  let before (e f : ChainEvent) : Bool :=
    e.blockHeight < f.blockHeight ||
      (e.blockHeight == f.blockHeight && e.logIndex < f.logIndex)
  sortBy before (l.events.values.filter (·.chain == chain))

def orphansOf (l : Ledger) (chain : ChainId) : List ChainEvent :=
  l.orphans.filter (·.chain == chain)

/-- All transfers, oldest first. -/
def allTransfers (l : Ledger) : List Transfer :=
  sortBy Transfer.createdBefore l.transfers.values

/-- The pending on-chain transfers of a chain. -/
def pendingTransfers (l : Ledger) (chain : ChainId) : List Transfer :=
  l.transfers.values.filter fun t =>
    t.status == .pending && t.chain == chain && t.originHeight.isSome

/-- The on-chain transfers of a chain from blocks of these heights. -/
def transfersInRange (l : Ledger) (chain : ChainId) (low high : Height) : List Transfer :=
  l.transfers.values.filter fun t =>
    t.chain == chain && t.originHeight.any fun h => low ≤ h && h ≤ high

/-- The transfer recorded under a dedupe key. -/
def transferByKey (l : Ledger) (key : String) : Option Transfer :=
  (l.recorded.get? key).bind l.transfers.get?

/-- Some route was settled by the transfer. -/
def isClaimed (l : Ledger) (id : TransferId) : Bool :=
  l.routes.values.any fun r => r.consumedBy == some id

/-- Confirmed transfers into a destination that settled no route, oldest first. -/
def unmatchedConfirmed (l : Ledger) (key : MatchKey) (token : Token) : List Transfer :=
  sortBy Transfer.createdBefore <| l.transfers.values.filter fun t =>
    t.status == .confirmed && t.token == token && MatchKey.ofTransfer? t == some key
      && !l.isClaimed t.id

/-- The open routes with one of the keys, their orders, and the trackers of a chain. -/
def matchContext (l : Ledger) (chain : ChainId) (keys : List MatchKey) : MatchContext :=
  let routes := l.routes.values.filter fun r =>
    r.isOpen && keys.contains r.destination.matchKey
  { routes
    orders := .ofValues (·.id) (routes.filterMap fun r => l.orders.get? r.orderId)
    trackers := l.trackers.values.filter (·.chain == chain)
    deposited := [] }

/-- The routes of an order, oldest first. -/
def routesOf (l : Ledger) (order : OrderId) : List Route :=
  let before (r s : Route) : Bool :=
    r.createdAt.before s.createdAt || (r.createdAt == s.createdAt && r.id < s.id)
  sortBy before (l.routes.values.filter (·.orderId == order))

def depositsOf (l : Ledger) (transfer : TransferId) : List Deposit :=
  l.deposits.values.filter (·.transferId == transfer)

end Ledger

end Paywatch
