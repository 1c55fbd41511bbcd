import Paywatch.Event.Decode
import Paywatch.Event.Target

/-!
# Events of a block

From the logs and transactions that a node gives for a block to the events of watched
targets.  Logs of other blocks, logs that the node dropped and repeated entries are
passed over; a watched log that cannot be read is counted.
-/

namespace Paywatch

/-- The events of a block in the order of their log index, and how many
entries could not be read. -/
structure Extraction where
  events : List ChainEvent
  decodeFailures : Nat
deriving DecidableEq, Repr, Inhabited

namespace Extraction

/-- What becomes of one log or transaction. -/
inductive Outcome where
  | skip
  | failure
  | event (e : ChainEvent)

/-- The event of a block about a target. -/
def eventOf (block : Block) (target : Target) (txHash : String) (logIndex : UInt64)
    (payload : Payload) : ChainEvent :=
  ⟨block.chain, block.height, block.hash, Text.lower txHash, logIndex, target.address,
    target.kind, target.token, payload⟩

/-- The contract of a log and the kind of its event, if both are watched in this block. -/
def watched? (block : Block) (watchlist : Watchlist) (log : Log) :
    Option (Target × EventKind) :=
  if log.removed || !Text.sameIgnoringAsciiCase log.blockHash block.hash then none
  else
    match Address.ofText log.address with
    | .error _ => none
    | .ok address => do
      let target ← watchlist.contract? address
      let kind ← EventKind.ofTopic (← log.topics.head?)
      if target.watches kind then some (target, kind) else none

def ofLog (block : Block) (watchlist : Watchlist) (log : Log) : Outcome :=
  match watched? block watchlist log with
  | none => .skip
  | some (target, kind) =>
    match log.decode kind with
    | .ok payload => .event (eventOf block target log.txHash log.index payload)
    | .error _ => .failure

def ofTx (block : Block) (watchlist : Watchlist) (tx : Tx) : Outcome :=
  match tx.decode with
  | .error _ => .failure
  | .ok (some payload) =>
    match payload with
    | .nativeTransfer _ receiver _ =>
      match watchlist.account? receiver with
      | some target =>
        if target.watches .nativeTransfer then
          .event (eventOf block target tx.hash (Tx.logIndex tx.index) payload)
        else .skip
      | none => .skip
    | _ => .skip
  | .ok none => .skip

/-- Adds an outcome; an event whose key is already there is left out. -/
def add (x : Extraction) : Outcome → Extraction
  | .skip => x
  | .failure => { x with decodeFailures := x.decodeFailures + 1 }
  | .event e =>
    if x.events.any (·.key == e.key) then x else { x with events := x.events ++ [e] }

/-- Sorts by log index; events with the same index keep their order. -/
def sortByIndex (events : List ChainEvent) : List ChainEvent :=
  sortBy (fun e f => e.logIndex < f.logIndex) events

/-- The events of a block. -/
def ofBlock (block : Block) (logs : List Log) (txs : List Tx) (watchlist : Watchlist) :
    Extraction :=
  let outcomes := logs.map (ofLog block watchlist) ++ txs.map (ofTx block watchlist)
  let all := outcomes.foldl add ⟨[], 0⟩
  { all with events := sortByIndex all.events }

end Extraction

end Paywatch
