import Paywatch.Chain.Document
import Paywatch.Order.Deposit
import Paywatch.Order.Route

/-!
# Orders, routes and deposits in documents
-/

namespace Paywatch

namespace AmountPolicy

def name : AmountPolicy → String
  | exact => "exact"
  | atLeast => "at_least"

def toData (p : AmountPolicy) : Data := .text p.name

def ofData? (d : Data) : Option AmountPolicy :=
  d.variant? ([exact, atLeast].map fun p => (p.name, p))

end AmountPolicy

namespace TieBreak

def name : TieBreak → String
  | oldestId => "oldest_id"
  | closestAmount => "closest_amount"

def toData (t : TieBreak) : Data := .text t.name

def ofData? (d : Data) : Option TieBreak :=
  d.variant? ([oldestId, closestAmount].map fun t => (t.name, t))

end TieBreak

namespace MatchingRules

def toData (r : MatchingRules) : Data :=
  .record [("default_amount_policy", r.defaultPolicy.toData),
    ("allow_partial_fills", .bool r.partialFills), ("tie_break", r.tieBreak.toData)]

/-- A part that is missing has its usual value. -/
def ofData? (d : Data) : Option MatchingRules := do
  let p ← d.parts? ["default_amount_policy", "allow_partial_fills", "tie_break"]
  let usual : MatchingRules := {}
  return {
    defaultPolicy :=
      ← p.orElse "default_amount_policy" usual.defaultPolicy AmountPolicy.ofData?
    partialFills := ← p.orElse "allow_partial_fills" usual.partialFills Data.bool?
    tieBreak := ← p.orElse "tie_break" usual.tieBreak TieBreak.ofData? }

end MatchingRules

namespace OrderStatus

def name : OrderStatus → String
  | «open» => "open"
  | paid => "paid"
  | expired => "expired"

def toData (s : OrderStatus) : Data := .text s.name

def ofData? (d : Data) : Option OrderStatus :=
  d.variant? ([«open», paid, expired].map fun s => (s.name, s))

end OrderStatus

namespace Order

def toData (o : Order) : Data :=
  .record [("id", o.id.toData), ("amount", o.amount.toData), ("token", o.token.toData),
    ("reference", .text o.reference), ("status", o.status.toData),
    ("total_paid", o.totalPaid.toData), ("created_at", o.createdAt.toData)]

def ofData? (d : Data) : Option Order := do
  let p ← d.parts? ["id", "amount", "token", "reference", "status", "total_paid",
    "created_at"]
  return {
    id := ← p.need "id" Id.ofData?
    amount := ← p.need "amount" Amount.ofData?
    token := ← p.need "token" Token.ofData?
    reference := ← p.need "reference" Data.text?
    status := ← p.need "status" OrderStatus.ofData?
    totalPaid := ← p.need "total_paid" Amount.ofData?
    createdAt := ← p.need "created_at" Instant.ofData? }

end Order

namespace MatchKey

def toData (k : MatchKey) : Data := .text k.text

def ofData? (d : Data) : Option MatchKey := d.text?.map MatchKey.mk

end MatchKey

namespace Destination

def toData : Destination → Data
  | blockchain chain address =>
    .record [("type", .text "blockchain"), ("chain", chain.toData),
      ("address", address.toData)]
  | raiden chain node identifier =>
    .record [("type", .text "raiden"), ("chain", chain.toData), ("node", node.toData),
      ("identifier", .ofWord identifier)]

def ofData? (d : Data) : Option Destination := do
  let (kind, parts) ← d.tagged? "type"
  match kind with
  | "blockchain" =>
    let p ← parts.parts? ["chain", "address"]
    return .blockchain (← p.need "chain" ChainId.ofData?)
      (← p.need "address" Address.ofData?)
  | "raiden" =>
    let p ← parts.parts? ["chain", "node", "identifier"]
    return .raiden (← p.need "chain" ChainId.ofData?) (← p.need "node" Address.ofData?)
      (← p.need "identifier" Data.word?)
  | _ => none

end Destination

namespace RouteTarget

def toData : RouteTarget → Data
  | blockchain chain address =>
    .record [("type", .text "blockchain"), ("chain", chain.toData),
      ("address", address.toData)]
  | raiden chain node =>
    .record [("type", .text "raiden"), ("chain", chain.toData), ("node", node.toData)]

def ofData? (d : Data) : Option RouteTarget := do
  let (kind, parts) ← d.tagged? "type"
  match kind with
  | "blockchain" =>
    let p ← parts.parts? ["chain", "address"]
    return .blockchain (← p.need "chain" ChainId.ofData?)
      (← p.need "address" Address.ofData?)
  | "raiden" =>
    let p ← parts.parts? ["chain", "node"]
    return .raiden (← p.need "chain" ChainId.ofData?) (← p.need "node" Address.ofData?)
  | _ => none

end RouteTarget

namespace HeightWindow

def toData (w : HeightWindow) : Data :=
  .record [("start_height", .ofWord w.start), ("expiration_height", .ofWord w.expiration)]

def ofData? (d : Data) : Option HeightWindow := do
  let p ← d.parts? ["start_height", "expiration_height"]
  return ⟨← p.need "start_height" Data.word?, ← p.need "expiration_height" Data.word?⟩

end HeightWindow

namespace RouteStatus

def name : RouteStatus → String
  | «open» => "open"
  | consumed => "consumed"

def toData (s : RouteStatus) : Data := .text s.name

def ofData? (d : Data) : Option RouteStatus :=
  d.variant? ([«open», consumed].map fun s => (s.name, s))

end RouteStatus

namespace Route

def toData (r : Route) : Data :=
  .record [("id", r.id.toData), ("order_id", r.orderId.toData),
    ("destination", r.destination.toData), ("token", r.token.toData),
    ("policy", r.policy.toData), ("window", .ofOption HeightWindow.toData r.window),
    ("status", r.status.toData),
    ("consumed_by", .ofOption Id.toData r.consumedBy), ("created_at", r.createdAt.toData)]

def ofData? (d : Data) : Option Route := do
  let p ← d.parts? ["id", "order_id", "destination", "token", "policy",
    "window", "status", "consumed_by", "created_at"]
  return {
    id := ← p.need "id" Id.ofData?
    orderId := ← p.need "order_id" Id.ofData?
    destination := ← p.need "destination" Destination.ofData?
    token := ← p.need "token" Token.ofData?
    policy := ← p.need "policy" AmountPolicy.ofData?
    window := ← p.optional "window" HeightWindow.ofData?
    status := ← p.need "status" RouteStatus.ofData?
    consumedBy := ← p.optional "consumed_by" Id.ofData?
    createdAt := ← p.need "created_at" Instant.ofData? }

end Route

namespace RouteRequest

def toData (r : RouteRequest) : Data :=
  .record [("order_id", r.orderId.toData), ("destination", r.target.toData),
    ("token", r.token.toData), ("amount_policy", .ofOption AmountPolicy.toData r.policy),
    ("payment_window", .ofOption HeightWindow.toData r.window)]

def ofData? (d : Data) : Option RouteRequest := do
  let p ← d.parts? ["order_id", "destination", "token", "amount_policy", "payment_window"]
  return {
    orderId := ← p.need "order_id" Id.ofData?
    target := ← p.need "destination" RouteTarget.ofData?
    token := ← p.need "token" Token.ofData?
    policy := ← p.orElse "amount_policy" none (Data.option? AmountPolicy.ofData?)
    window := ← p.orElse "payment_window" none (Data.option? HeightWindow.ofData?) }

end RouteRequest

namespace DepositTracker

def toData (t : DepositTracker) : Data :=
  .record [("id", t.id.toData), ("external_ref", .text t.externalRef),
    ("chain", t.chain.toData), ("address", t.address.toData),
    ("token", .ofOption Token.toData t.token),
    ("created_at", t.createdAt.toData)]

def ofData? (d : Data) : Option DepositTracker := do
  let p ← d.parts? ["id", "external_ref", "chain", "address", "token", "created_at"]
  return {
    id := ← p.need "id" Id.ofData?
    externalRef := ← p.need "external_ref" Data.text?
    chain := ← p.need "chain" ChainId.ofData?
    address := ← p.need "address" Address.ofData?
    token := ← p.optional "token" Token.ofData?
    createdAt := ← p.need "created_at" Instant.ofData? }

end DepositTracker

namespace Deposit

def toData (d : Deposit) : Data :=
  .record [("id", d.id.toData), ("tracker_id", d.trackerId.toData),
    ("external_ref", .text d.externalRef), ("transfer_id", d.transferId.toData),
    ("chain", d.chain.toData), ("height", .ofOption .ofWord d.height),
    ("created_at", d.createdAt.toData)]

def ofData? (d : Data) : Option Deposit := do
  let p ← d.parts? ["id", "tracker_id", "external_ref", "transfer_id", "chain", "height",
    "created_at"]
  return {
    id := ← p.need "id" Id.ofData?
    trackerId := ← p.need "tracker_id" Id.ofData?
    externalRef := ← p.need "external_ref" Data.text?
    transferId := ← p.need "transfer_id" Id.ofData?
    chain := ← p.need "chain" ChainId.ofData?
    height := ← p.optional "height" Data.word?
    createdAt := ← p.need "created_at" Instant.ofData? }

end Deposit

end Paywatch
