import Paywatch.Chain.Document
import Paywatch.Notice.Basic

/-!
# Notices in documents

A notice is a record that says under `event` what happened.
-/

namespace Paywatch

namespace Notice

/-- All but the name. -/
def parts : Notice → List (String × Data)
  | settlement order route transfer chain height =>
    [("order_id", order.toData), ("route_id", route.toData),
      ("transfer_id", transfer.toData), ("chain", chain.toData),
      ("confirmed_at_height", .ofOption .ofWord height)]
  | blocksReverted chain fromHeight toHeight =>
    [("chain", chain.toData), ("from_height", .ofWord fromHeight),
      ("to_height", .ofWord toHeight)]
  | depositRecorded deposit transfer externalRef chain =>
    [("deposit_id", deposit.toData), ("transfer_id", transfer.toData),
      ("external_ref", .text externalRef), ("chain", chain.toData)]
  | chainUnavailable chain attempt retryInMillis =>
    [("chain", chain.toData), ("attempt", .ofNat attempt.toNat),
      ("retry_in_ms", .ofWord retryInMillis)]
  | chainHalted chain reason => [("chain", chain.toData), ("reason", .text reason)]
  | providerOnline chain endpoint =>
      [("chain", chain.toData), ("endpoint", .text endpoint)]
  | providerOffline chain endpoint =>
      [("chain", chain.toData), ("endpoint", .text endpoint)]

def toData (n : Notice) : Data := .record (("event", .text n.name) :: n.parts)

/-- A notice about an endpoint. -/
def endpointOfData? (make : ChainId → String → Notice) (name : String) (d : Data) :
    Option Notice := do
  let p ← d.parts? ["chain", name]
  return make (← p.need "chain" ChainId.ofData?) (← p.need name Data.text?)

def ofData? (d : Data) : Option Notice := do
  let (name, d) ← d.tagged? "event"
  match name with
  | "settlement" =>
    let p ← d.parts? ["order_id", "route_id", "transfer_id", "chain",
      "confirmed_at_height"]
    return .settlement (← p.need "order_id" Id.ofData?) (← p.need "route_id" Id.ofData?)
      (← p.need "transfer_id" Id.ofData?) (← p.need "chain" ChainId.ofData?)
      (← p.optional "confirmed_at_height" Data.word?)
  | "blocks_reverted" =>
    let p ← d.parts? ["chain", "from_height", "to_height"]
    return .blocksReverted (← p.need "chain" ChainId.ofData?)
      (← p.need "from_height" Data.word?) (← p.need "to_height" Data.word?)
  | "deposit_recorded" =>
    let p ← d.parts? ["deposit_id", "transfer_id", "external_ref", "chain"]
    return .depositRecorded (← p.need "deposit_id" Id.ofData?)
      (← p.need "transfer_id" Id.ofData?)
      (← p.need "external_ref" Data.text?) (← p.need "chain" ChainId.ofData?)
  | "chain_unavailable" =>
    let p ← d.parts? ["chain", "attempt", "retry_in_ms"]
    return .chainUnavailable (← p.need "chain" ChainId.ofData?)
      (UInt32.ofNat (← p.need "attempt" (Data.natBelow? UInt32.size)))
      (← p.need "retry_in_ms" Data.word?)
  | "chain_halted" => endpointOfData? .chainHalted "reason" d
  | "provider_online" => endpointOfData? .providerOnline "endpoint" d
  | "provider_offline" => endpointOfData? .providerOffline "endpoint" d
  | _ => none

end Notice

end Paywatch
