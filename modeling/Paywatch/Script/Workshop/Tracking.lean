import Paywatch.Script.Workshop.Basic

/-!
# Steps on the tracker

The tracker of the workshop is moved by hand, or runs as a task while a
new one takes its place.
-/

namespace Paywatch.Script

def tipData (t : Tracker) : Data := .ofOption BlockRef.toData t.tip?

def pollEntries (p : Tracker.Poll) : List (String × Data) :=
  entriesOr trackerError (fun behind => [("behind", .bool behind)]) p.outcome

/-- Steps on the tracker. -/
def trackerStep? (d : Data) : Option (WorkshopAct Data) :=
  match text d "do" with
  | "seed" => some do
    let refs ← match field d "blocks" with
      | .list items => pure (items.map blockRef)
      | _ =>
        let node ← nodeOf? d
        let low := nat d "from" 0
        pure ((List.range (nat d "to" 0 + 1 - low)).filterMap fun i =>
          (node.bind (·.blockAt? (UInt64.ofNat (low + i)))).map (·.ref))
    changeOwn fun w => { w with tracker := w.tracker.seed refs }
    return tipData (← getOwn).tracker
  | "reset_base" => some do
    let b ← stepBlock d
    changeOwn fun w => { w with tracker := w.tracker.resetBase b }
    return tipData (← getOwn).tracker
  | "window" => some do return .ofList refRow (← getOwn).tracker.window.blocks
  | "query_head" => some do
    return .ofWord (← performOr trackerError (← getOwn).tracker.queryHead)
  | "fetch_block" => some do
    return (← performOr trackerError
      ((← getOwn).tracker.fetchBlock (word d "height" 0))).toData
  | "poll" => some do
    let p ← perform (← getOwn).tracker.poll
    if p.panics then refuse panicked
    changeOwn fun w => { w with tracker := p.tracker }
    return .record (pollEntries p
      ++ [("messages", .ofList messageData p.messages), ("tip", tipData p.tracker)])
  | "advance" => some do
    let a ← perform ((← getOwn).tracker.advance (word d "target" 0) (flag d "live"))
    if a.panics then refuse panicked
    changeOwn fun w => { w with tracker := a.tracker }
    return .record (entriesOr trackerError (fun _ => []) a.outcome
      ++ [("messages", .ofList messageData a.messages), ("tip", tipData a.tracker)])
  | "poll_apply" => some do
    let p ← perform (← getOwn).tracker.poll
    if p.panics then refuse panicked
    changeOwn fun w => { w with tracker := p.tracker }
    performOr workerError ((← getOwn).ingest.applyAll (← stepLease d) p.messages)
    return .record (pollEntries p ++ [("messages", .ofNat p.messages.length)])
  | "tracker_start" => some do
    let w ← getOwn
    match w.channel with
    | some old => change (·.dismiss old)
    | none => pure ()
    let channel ← direct (·.startTracker w.tracker (max (nat d "capacity" 16) 1))
    changeOwn fun w =>
      { w with channel := some channel, tracker := .new w.ingest.chain w.settings }
    return .null
  | "tracker_take" => some do
    match (← getOwn).channel with
    | none => return .list []
    | some channel =>
      let taken ← direct fun r => r.take channel (nat d "max_ms" 1000) (nat d "count" 0)
      return .ofList (fun
        | .message m => messageData m
        | .closed => .text "closed"
        | .idle => .text "idle") taken
  | "tracker_stop" => some do
    match (← getOwn).channel with
    | none => return .null
    | some channel =>
      change (·.stopTracker channel)
      changeOwn fun w => { w with channel := none }
      return .null
  | _ => none

end Paywatch.Script
