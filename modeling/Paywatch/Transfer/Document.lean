import Paywatch.Event.Document
import Paywatch.Transfer.Basic

/-!
# Transfers in documents

The origin, execution and confirmation of a transfer stand together under `kind`.
-/

namespace Paywatch

namespace TransferStatus

def name : TransferStatus → String
  | pending => "pending"
  | confirmed => "confirmed"
  | reverted => "reverted"

def toData (s : TransferStatus) : Data := .text s.name

def ofData? (d : Data) : Option TransferStatus :=
  d.variant? ([pending, confirmed, reverted].map fun s => (s.name, s))

end TransferStatus

namespace Party

def toData : Party → Data
  | address a => .record [("address", a.toData)]
  | account name => .record [("account", .text name)]

def ofData? (d : Data) : Option Party := do
  match ← d.wrapped? with
  | ("address", d) => return .address (← Address.ofData? d)
  | ("account", d) => return .account (← d.text?)
  | _ => none

end Party

namespace Execution

def toData (e : Execution) : Data :=
  .record [("executed_at", e.time.toData), ("height", .ofOption .ofWord e.height)]

def ofData? (d : Data) : Option Execution := do
  let p ← d.parts? ["executed_at", "height"]
  return ⟨← p.need "executed_at" Instant.ofData?, ← p.optional "height" Data.word?⟩

end Execution

namespace Confirmation

def toData (c : Confirmation) : Data :=
  .record [("confirmed_at", c.time.toData), ("height", .ofOption .ofWord c.height)]

def ofData? (d : Data) : Option Confirmation := do
  let p ← d.parts? ["confirmed_at", "height"]
  return ⟨← p.need "confirmed_at" Instant.ofData?, ← p.optional "height" Data.word?⟩

end Confirmation

namespace ChainOrigin

def toData (o : ChainOrigin) : Data :=
  .record [("chain", o.chain.toData), ("block_height", .ofWord o.blockHeight),
    ("block_hash", .text o.blockHash), ("tx_hash", .text o.txHash),
    ("log_index", .ofWord o.logIndex), ("event_kind", o.eventKind.toData),
    ("contract", o.contract.toData)]

def ofData? (d : Data) : Option ChainOrigin := do
  let p ← d.parts? ["chain", "block_height", "block_hash", "tx_hash", "log_index",
    "event_kind", "contract"]
  return {
    chain := ← p.need "chain" ChainId.ofData?
    blockHeight := ← p.need "block_height" Data.word?
    blockHash := ← p.need "block_hash" Data.text?
    txHash := ← p.need "tx_hash" Data.text?
    logIndex := ← p.need "log_index" Data.word?
    eventKind := ← p.need "event_kind" EventKind.ofData?
    contract := ← p.need "contract" Address.ofData? }

end ChainOrigin

namespace Direction

def name : Direction → String
  | received => "received"
  | sent => "sent"

def toData (d : Direction) : Data := .text d.name

def ofData? (d : Data) : Option Direction :=
  d.variant? ([received, sent].map fun s => (s.name, s))

end Direction

namespace RaidenOrigin

def toData (o : RaidenOrigin) : Data :=
  .record [("chain", o.chain.toData), ("node", o.node.toData),
    ("identifier", .ofWord o.identifier), ("partner", o.partner.toData),
    ("direction", o.direction.toData), ("log_time", o.logTime.toData)]

def ofData? (d : Data) : Option RaidenOrigin := do
  let p ← d.parts? ["chain", "node", "identifier", "partner", "direction", "log_time"]
  return {
    chain := ← p.need "chain" ChainId.ofData?
    node := ← p.need "node" Address.ofData?
    identifier := ← p.need "identifier" Data.word?
    partner := ← p.need "partner" Address.ofData?
    direction := ← p.need "direction" Direction.ofData?
    logTime := ← p.need "log_time" Instant.ofData? }

end RaidenOrigin

namespace Transfer

/-- Whether the origin was read or not is told apart by its name; the rest is common. -/
def kindData (t : Transfer) : Data :=
  let origin : String × Data := match t.origin with
    | .internal memo => ("memo", .ofOption .text memo)
    | .blockchain o => ("origin", o.toData)
    | .raiden o => ("origin", o.toData)
  .record [("type", .text t.origin.text), origin,
    ("execution", .ofOption Execution.toData t.execution),
    ("confirmation", .ofOption Confirmation.toData t.confirmation)]

def toData (t : Transfer) : Data :=
  .record [("id", t.id.toData), ("amount", t.amount.toData), ("token", t.token.toData),
    ("sender", t.sender.toData), ("receiver", t.receiver.toData),
    ("status", t.status.toData), ("created_at", t.createdAt.toData), ("kind", t.kindData)]

/-- What stands under `kind`. -/
def kindOfData? (d : Data) : Option (Origin × Option Execution × Option Confirmation) :=
  do
  let (name, parts) ← d.tagged? "type"
  let first := if name = "internal" then "memo" else "origin"
  let p ← parts.parts? [first, "execution", "confirmation"]
  let origin ← match name with
    | "internal" => (p.optional "memo" Data.text?).map Origin.internal
    | "blockchain" => (p.need "origin" ChainOrigin.ofData?).map Origin.blockchain
    | "raiden" => (p.need "origin" RaidenOrigin.ofData?).map Origin.raiden
    | _ => none
  return (origin, ← p.optional "execution" Execution.ofData?,
    ← p.optional "confirmation" Confirmation.ofData?)

def ofData? (d : Data) : Option Transfer := do
  let p ← d.parts? ["id", "amount", "token", "sender", "receiver", "status",
    "created_at", "kind"]
  let (origin, execution, confirmation) ← p.need "kind" kindOfData?
  return {
    id := ← p.need "id" Id.ofData?
    amount := ← p.need "amount" Amount.ofData?
    token := ← p.need "token" Token.ofData?
    sender := ← p.need "sender" Party.ofData?
    receiver := ← p.need "receiver" Party.ofData?
    status := ← p.need "status" TransferStatus.ofData?
    createdAt := ← p.need "created_at" Instant.ofData?
    origin, execution, confirmation }

end Transfer

end Paywatch
