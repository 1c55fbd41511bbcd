import Paywatch.Script.Workshop.Basic

/-!
# Steps that ingest blocks

Blocks are ingested and reverted one by one, or the chain catches up.
-/

namespace Paywatch.Script

def reportData (b : BlockReport) : Data :=
  .record [("height", .ofWord b.height), ("raw_events", .ofNat b.events),
    ("decode_failures", .ofNat b.decodeFailures),
    ("new_transfers", .ofNat b.newTransfers), ("confirmed", .ofNat b.confirmed),
    ("settlements", .ofNat b.settlements),
    ("deposits", .ofNat b.deposits)]

/-- Applies blocks of a node one after the other; adds up what they confirmed. -/
def processRange (d : Data) (lease : Lease) (confirmed : Nat) :
    (count : Nat) → (height : UInt64) → WorkshopAct Nat
  | 0, _ => return confirmed
  | count + 1, height => do
    let b ← match (← nodeOf? d).bind (·.blockAt? height) with
      | some b => pure b
      | none => refuse (fault "NoBlock")
    let report ← performOr workerError ((← getOwn).ingest.block lease b false)
    processRange d lease (confirmed + report.confirmed) count (height + 1)

/-- Steps that ingest blocks. -/
def ingestStep? (d : Data) : Option (WorkshopAct Data) :=
  match text d "do" with
  | "process" => some do
    let b ← stepBlock d
    return reportData (← performOr workerError
      ((← getOwn).ingest.block (← stepLease d) b (flag d "base")))
  | "process_range" => some do
    let low := word d "from" 0
    let count := nat d "to" 0 + 1 - low.toNat
    return .record [("confirmed", .ofNat (← processRange d (← stepLease d) 0 count low))]
  | "revert" => some do
    return .record [("reverted", .ofNat (← performOr workerError
      ((← getOwn).ingest.revert (← stepLease d) (range (field d "range")))))]
  | "backfill" => some do
    let w ← getOwn
    match w.keeper with
    | none => refuse (fault "NoKeeper")
    | some k =>
      let c ← perform (CatchUp.run w.ingest (word d "depth" 0) w.tracker k)
      changeOwn fun w => { w with tracker := c.tracker, keeper := some c.keeper }
      match ← lift (orFail workerError c.outcome) with
      | none => return .null
      | some report =>
        return .record [("resume_from", .ofWord report.resumeFrom),
          ("head", .ofWord report.head), ("blocks", .ofNat report.blocks),
          ("reverts", .ofNat report.reverts)]
  | _ => none

end Paywatch.Script
