import Paywatch.Ledger.Lease

/-!
# Commits

A batch is what one block, or one reorganisation, changes. It is applied as a whole or
not at all: the lease, the transfers it replaces, the routes it settles and its place
behind the watermark are checked before anything is written.
-/

namespace Paywatch

/-- A change of one transfer. -/
inductive TransferWrite where
  | insert (t : Transfer)
  /-- Replaces a transfer whose status is still the expected one. -/
  | update (t : Transfer) (expected : TransferStatus)
deriving DecidableEq

/-- How a batch follows the watermark. -/
inductive Link where
  /-- The child of the watermark, or a block that was processed before. -/
  | child (parentHash : String)
  /-- The first block after a gap, above the watermark if there is one. -/
  | base
  /-- The last block that stays when a reorganisation takes back what is above it. -/
  | rewind
deriving DecidableEq, Repr

/-- All changes of one block or one reorganisation. -/
structure Batch where
  lease : Lease
  /-- The watermark afterwards. -/
  target : BlockRef
  link : Link
  reverted : Option RevertedRange := none
  events : List ChainEvent := []
  writes : List TransferWrite := []
  claims : List Claim := []
  deposits : List Deposit := []
deriving DecidableEq

namespace Batch

/-- The next block of a chain. -/
def ofBlock (lease : Lease) (block : Block) : Batch :=
  { lease, target := block.ref, link := .child block.parentHash }

/-- The first block after a gap. -/
def ofBase (lease : Lease) (block : Block) : Batch :=
  { lease, target := block.ref, link := .base }

def ofRevert (lease : Lease) (range : RevertedRange) : Batch :=
  { lease, target := range.forkPoint, link := .rewind, reverted := some range }

def chain (b : Batch) : ChainId := b.lease.chain

/-- Whether the batch moves the watermark from `current`; a block that was processed
before does not. `recorded` is the hash remembered at the height of the batch. A block
is compared with the height after the watermark first. -/
def advances (b : Batch) (current : Option BlockRef) (recorded : Option String) :
    Except LedgerError Bool :=
  let mismatch : Except LedgerError Bool :=
    .error (.watermarkMismatch b.chain b.target.height (current.map (·.height)))
  match b.link, current with
  | .child _, none => .ok true
  | .base, none => .ok true
  | .rewind, none => mismatch
  | .child parentHash, some mark =>
    match mark.height.plus? 1 with
    | none => .error .overflow
    | some next =>
      if b.target.height = next ∧ parentHash = mark.hash then .ok true
      else if b.target.height ≤ mark.height ∧ recorded = some b.target.hash then .ok false
      else mismatch
  | .base, some mark => if mark.height < b.target.height then .ok true else mismatch
  | .rewind, some mark =>
    if b.target.height ≤ mark.height ∧ recorded.all (· == b.target.hash) then .ok true
    else mismatch

end Batch

namespace Ledger

def checkLease (l : Ledger) (lease : Lease) : Except LedgerError Unit :=
  if l.holds lease then .ok () else .error (.leaseLost lease.chain)

/-- A transfer that is replaced exists and has the expected status. -/
def checkWrite (l : Ledger) : TransferWrite → Except LedgerError Unit
  | .insert _ => .ok ()
  | .update t expected =>
    match l.transfers.get? t.id with
    | none => .error (.notFound "transfer" t.id.text)
    | some current =>
      if current.status = expected then .ok () else .error (.transferConflict t.id)

/-- The route of a claim and its order are open, and its transfer settled nothing yet. -/
def checkClaim (l : Ledger) (c : Claim) : Except LedgerError Unit :=
  let routeOpen := (l.routes.get? c.routeId).any fun r => r.isOpen && r.consumedBy.isNone
  let orderOpen := (l.orders.get? c.orderId).any (·.isOpen)
  if routeOpen && orderOpen && !l.isClaimed c.transferId then .ok ()
  else .error (.claimConflict c.routeId)

/-- Writes one transfer; a new one whose dedupe key is recorded is left out. -/
def writeTransfer (l : Ledger) : TransferWrite → Ledger
  | .insert t =>
    if l.recorded.contains t.dedupeKey then l
    else
      { l with
        recorded := l.recorded.insert t.dedupeKey t.id
        transfers := l.transfers.insert t.id t }
  | .update t _ => { l with transfers := l.transfers.insert t.id t }

/-- Settles the route of a claim and books its amount. -/
def writeClaim (l : Ledger) (c : Claim) : Ledger :=
  { l with
    routes := l.routes.modify c.routeId (·.consume c.transferId)
    orders := l.orders.modify c.orderId (·.pay c.amount) }

/-- Records a deposit, unless its tracker has one of the same transfer. -/
def writeDeposit (l : Ledger) (d : Deposit) : Ledger :=
  if l.deposits.values.any fun e =>
      e.trackerId == d.trackerId && e.transferId == d.transferId
  then l
  else { l with deposits := l.deposits.insert d.id d }

def writePlan (l : Ledger) (claims : List Claim) (deposits : List Deposit) : Ledger :=
  deposits.foldl writeDeposit (claims.foldl writeClaim l)

/-- Records an event, unless its key is recorded. -/
def writeEvent (l : Ledger) (e : ChainEvent) : Ledger :=
  { l with events := l.events.insertNew e.key e }

/-- Takes back the events and the remembered blocks of a range. -/
def revertRange (l : Ledger) (chain : ChainId) (range : RevertedRange) : Ledger :=
  let takenBack (e : ChainEvent) : Bool :=
    e.chain == chain && range.contains e.blockHeight
  { l with
    orphans := l.orphans ++ l.events.values.filter takenBack
    events := l.events.filter fun _ e => !takenBack e
    recent := l.recent.filter fun k _ => k.1 ≠ chain || k.2 < range.fromHeight }

/-- Moves the watermark of a chain and forgets blocks too far below it. -/
def advance (l : Ledger) (chain : ChainId) (target : BlockRef) : Ledger :=
  { l with
    watermarks := l.watermarks.insert chain target
    recent := (l.recent.insert (chain, target.height) target).filter fun k _ =>
      k.1 ≠ chain || retentionFloor target.height ≤ k.2 }

/-- Applies a batch. -/
def commit (l : Ledger) (b : Batch) : Except LedgerError Ledger := do
  l.checkLease b.lease
  b.writes.forM l.checkWrite
  b.claims.forM l.checkClaim
  let moves ← b.advances (l.watermark b.chain) (l.recordedHash? b.chain b.target.height)
  let l := match b.reverted with
    | some range => l.revertRange b.chain range
    | none => l
  let l := b.events.foldl writeEvent l
  let l := b.writes.foldl writeTransfer l
  let l := l.writePlan b.claims b.deposits
  return if moves then l.advance b.chain b.target else l

/-- Applies transfers and a plan that belong to no block. -/
def commitPlan (l : Ledger) (writes : List TransferWrite) (plan : Plan) :
    Except LedgerError Ledger := do
  writes.forM l.checkWrite
  plan.claims.forM l.checkClaim
  return (writes.foldl writeTransfer l).writePlan plan.claims plan.deposits

def insertOrder (l : Ledger) (o : Order) : Ledger :=
  { l with orders := l.orders.insert o.id o }

def insertRoute (l : Ledger) (r : Route) : Ledger :=
  { l with routes := l.routes.insert r.id r }

def insertTracker (l : Ledger) (t : DepositTracker) : Ledger :=
  { l with trackers := l.trackers.insert t.id t }

/-- An open order expires; tells whether it was open. -/
def expireOrder (l : Ledger) (id : OrderId) : Except LedgerError (Bool × Ledger) :=
  match l.orders.get? id with
  | none => .error (.notFound "order" id.text)
  | some o =>
    if o.isOpen then
      .ok (true, { l with orders := l.orders.insert id { o with status := .expired } })
    else .ok (false, l)

end Ledger

end Paywatch
