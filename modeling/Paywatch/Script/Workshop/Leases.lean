import Paywatch.Script.Workshop.Basic

/-!
# Steps on leases and time

Leases are taken, kept and lost; the clock goes on.
-/

namespace Paywatch.Script

/-- Steps on leases. -/
def leaseStep? (d : Data) : Option (WorkshopAct Data) :=
  let ttl := nat d "ttl_ms" 3600000 * nanosPerMilli
  match text d "do" with
  | "acquire" => some do
    match ← perform
      (Flow.ledger (.acquire (← getOwn).ingest.chain (text d "holder") ttl)) with
    | none => return .bool false
    | some lease =>
      changeOwn fun w => { w with leases := w.leases.insert (text d "as") lease }
      return .bool true
  | "expire_lease" => some do
    let chain := (← getOwn).ingest.chain
    changeStage fun s => { s with ledger := s.ledger.expireLease chain }
    return .null
  | "keeper" => some do
    let chain := (← getOwn).ingest.chain
    let outcome ← direct fun r =>
      Rehearsal.awaitLease chain (text d "holder") ttl (nat d "retry_ms" 10)
        (r.stage.clock + nat d "max_ms" 100) 100000 r
    match outcome with
    | .held k =>
      changeOwn fun w => { w with keeper := some k }
      return .record [("chain", k.lease.chain.toData), ("holder", .text k.lease.holder)]
    | .stopped => return .text "shutdown"
    | .waiting => return .text "waiting"
  | "renew_if_due" => some do
    match (← getOwn).keeper with
    | none => return .null
    | some k =>
      let k ← performOr ledgerError k.renewIfDue
      changeOwn fun w => { w with keeper := some k }
      return .text "ok"
  | "release_keeper" => some do
    match (← getOwn).keeper with
    | none => return .null
    | some k =>
      perform k.release
      changeOwn fun w => { w with keeper := none }
      return .null
  | "shutdown" => some do
    change (·.setStop (flag d "on"))
    return .null
  | "sleep" => some do
    change (·.sleep (nat d "ms" 0))
    return .null
  | _ => none

end Paywatch.Script
