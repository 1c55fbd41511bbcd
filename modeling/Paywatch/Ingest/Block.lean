import Paywatch.Matching.Settlement
import Paywatch.Transfer.Classify
import Paywatch.Transfer.Lifecycle
import Paywatch.Event.Extract

/-!
# Ingesting blocks

A block is read for events, its events become transfers, the pending transfers that now
lie deep enough are confirmed and matched, and all of that is committed as one batch.
Notices go out after the commit and only then. A reorganisation reverts the pending
transfers of the blocks it takes back.
-/

namespace Paywatch

/-- Why a worker could not go on. -/
inductive WorkerError where
  | ledger (e : LedgerError)
  | tracker (e : TrackerError)
  /-- The events of a block could not be read. -/
  | extract (e : ProviderError)
  | reconcile (e : ReconcileError)
  | halted (chain : ChainId) (reason : String)
  | commitConflict (chain : ChainId) (height : Height) (attempts : Nat)
deriving DecidableEq, Repr

namespace WorkerError

def message : WorkerError → String
  | ledger e => "Store error: " ++ e.message
  | tracker e => "Tracker error: " ++ e.message
  | extract e => "Extraction failed: Provider error: " ++ e.message
  | reconcile e => "Reconciliation error: " ++ e.message
  | halted chain reason => "Chain " ++ chain.text ++ " halted: " ++ reason
  | commitConflict chain height attempts =>
    "Block " ++ Text.decimalWord height ++ " on chain " ++ chain.text
      ++ " still conflicting after " ++ Text.decimal attempts ++ " commit attempts"

/-- A transient failure is tried again; any other halts the chain. -/
def isTransient : WorkerError → Bool
  | extract _ => true
  | tracker e => e.isTransient
  | commitConflict .. => true
  | _ => false

def isLeaseLost : WorkerError → Bool
  | ledger (.leaseLost _) => true
  | _ => false

/-- The program panics, and the task that it happens in is gone. -/
def isPanic : WorkerError → Bool
  | ledger .overflow => true
  | tracker .overflow => true
  | _ => false

/-- No provider gave what was asked for. -/
def isProviderFailure : WorkerError → Bool
  | extract _ => true
  | tracker (.provider _) => true
  | _ => false

/-- What a chain that halts for this error gives as its reason. -/
def reason : WorkerError → String
  | halted _ reason => reason
  | e => e.message

end WorkerError

/-- What the ingestion of one block did. -/
structure BlockReport where
  height : Height
  events : Nat
  decodeFailures : Nat
  newTransfers : Nat
  confirmed : Nat
  settlements : Nat
  deposits : Nat
deriving DecidableEq, Repr

/-- How the blocks of a chain are ingested. -/
structure Ingest where
  chain : ChainId
  /-- So many blocks have to lie above a transfer before it counts. -/
  depth : UInt64
  rules : MatchingRules

namespace Ingest

/-- Reads the watched events of a block. Providers are asked only for what
can hold any. -/
def extract (block : Block) : Flow (Except ProviderError Extraction) := do
  let watchlist ← Flow.ask (.watchlist block.chain)
  let contracts := watchlist.contractAddresses
  let logs : Except ProviderError (List Log) ←
    if contracts.isEmpty then pure (.ok [])
    else Flow.ask (.node block.chain (.logs block.hash contracts))
  match logs with
  | .error e => return .error e
  | .ok logs =>
    let txs : Except ProviderError (List Tx) ←
      if watchlist.hasAccounts then
        Flow.ask (.node block.chain (.transactions block.hash))
      else pure (.ok [])
    match txs with
    | .error e => return .error e
    | .ok txs => return .ok (Extraction.ofBlock block logs txs watchlist)

/-- When the transfers of a block took place: at the time of the block, or
now if that is no time. -/
def blockTime (block : Block) : Flow Instant :=
  match Instant.ofEpoch? block.timestamp.toInt 0 with
  | some t => pure t
  | none => Flow.ask .now

/-- The transfers of events; an event that cannot be one is passed over. -/
def transfersOf (executedAt : Instant) : List ChainEvent → Flow (List Transfer)
  | [] => pure []
  | e :: rest => do
    match e.legs? with
    | none => transfersOf executedAt rest
    | some _ =>
      let stamp ← Flow.ask .stamp
      match e.transfer stamp executedAt with
      | .ok t => return t :: (← transfersOf executedAt rest)
      | .error _ => transfersOf executedAt rest

/-- The writes and the confirmed transfers that follow from a head at `height`: what is
stored and becomes confirmed is replaced, what is new is inserted as it then is. -/
def confirmation (depth : UInt64) (height : Height) (now : Instant)
    (stored new : List Transfer) : List TransferWrite × List Transfer :=
  let due := stored.filterMap (·.confirmDue? depth height now)
  let fresh := new.map fun t => (t.confirmDue? depth height now).getD t
  (due.map (fun t => .update t .pending) ++ fresh.map .insert,
    due ++ new.filterMap (·.confirmDue? depth height now))

/-- What confirmed transfers settle. -/
def plan (i : Ingest) (confirmed : List Transfer) : Flow (Except ReconcileError Plan) :=
  do
  if confirmed.isEmpty then return .ok Plan.empty
  let ctx ← Flow.ledger (.matchContext i.chain (MatchKey.ofTransfers confirmed))
  match i.rules.plan ctx confirmed with
  | .error e => return .error e
  | .ok draft => return .ok (← draft.stamp)

/-- Confirms, plans, commits and announces once. `start` is the batch
without its contents. -/
def blockOnce (i : Ingest) (start : Batch) (decodeFailures : Nat)
    (events : List ChainEvent) (new : List Transfer) :
    Flow (Attempt WorkerError BlockReport) := do
  let stored ← Flow.ledger (.pendingTransfers i.chain)
  let now ← Flow.ask .now
  let (writes, confirmed) := confirmation i.depth start.target.height now stored new
  match ← i.plan confirmed with
  | .error e => return .failed (.reconcile e)
  | .ok plan =>
    let report : BlockReport :=
      ⟨start.target.height, events.length, decodeFailures, new.length, confirmed.length,
        plan.claims.length, plan.deposits.length⟩
    let commit ← Flow.ledger (.commit
      { start with events, writes, claims := plan.claims, deposits := plan.deposits })
    match Attempt.ofCommit WorkerError.ledger report commit with
    | .done report =>
      Flow.publishAll plan.notices
      return .done report
    | refused => return refused

/-- Ingests a block; `base` says that it is the first one after a gap. -/
def block (i : Ingest) (lease : Lease) (b : Block) (base : Bool) :
    Flow (Except WorkerError BlockReport) := do
  match ← extract b with
  | .error e => return .error (.extract e)
  | .ok extraction =>
    let known ← Flow.ledger (.existingEvents (extraction.events.map (·.key)))
    let events := extraction.events.filter fun e => !known.contains e.key
    let new ← transfersOf (← blockTime b) events
    let start := if base then Batch.ofBase lease b else Batch.ofBlock lease b
    Attempt.upTo (.commitConflict i.chain b.height Attempt.limit)
      (i.blockOnce start extraction.decodeFailures events new) Attempt.limit

/-- Reverts a range once; tells how many transfers it took back. -/
def revertOnce (i : Ingest) (lease : Lease) (range : RevertedRange) :
    Flow (Attempt WorkerError Nat) := do
  let stored ← Flow.ledger (.transfersInRange i.chain range.fromHeight range.toHeight)
  let reverted := stored.filterMap (·.revertIn? range)
  let commit ← Flow.ledger (.commit
    { Batch.ofRevert lease range with writes := reverted.map (.update · .pending) })
  match Attempt.ofCommit WorkerError.ledger reverted.length commit with
  | .done n =>
    Flow.publishAll [.blocksReverted i.chain range.fromHeight range.toHeight]
    return .done n
  | refused => return refused

/-- Takes back the blocks of a range. -/
def revert (i : Ingest) (lease : Lease) (range : RevertedRange) :
    Flow (Except WorkerError Nat) :=
  Attempt.upTo (.commitConflict i.chain range.forkPoint.height Attempt.limit)
    (i.revertOnce lease range) Attempt.limit

/-- Applies a message of the tracker; what is no change of the chain is
left to the worker. -/
def apply (i : Ingest) (lease : Lease) : Message → Flow (Except WorkerError Unit)
  | .accepted b _ => do return (← i.block lease b false).map fun _ => ()
  | .reverted range => do return (← i.revert lease range).map fun _ => ()
  | .unavailable .. => pure (.ok ())
  | .halted _ => pure (.ok ())

/-- Applies messages in order up to the first failure. -/
def applyAll (i : Ingest) (lease : Lease) : List Message → Flow (Except WorkerError Unit)
  | [] => pure (.ok ())
  | m :: rest => do
    match ← i.apply lease m with
    | .ok () => applyAll i lease rest
    | .error e => return .error e

end Ingest

end Paywatch
