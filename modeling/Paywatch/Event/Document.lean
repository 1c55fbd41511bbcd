import Paywatch.Chain.Document
import Paywatch.Event.Target
import Paywatch.Yaml.Reader

/-!
# Events and targets in documents

Recorded events as structured data, and the catalog of watched targets as
operators write it.
-/

namespace Paywatch

namespace ContractKind

def names : List (String × ContractKind) :=
  [erc20, tokenNetwork, native].map fun kind => (kind.text, kind)

def toData (kind : ContractKind) : Data := .text kind.text

def ofData? (d : Data) : Option ContractKind := d.variant? names

end ContractKind

namespace EventKind

def names : List (String × EventKind) :=
  [erc20Transfer, channelDeposit, channelWithdraw, nativeTransfer].map fun kind =>
    (kind.text, kind)

def toData (kind : EventKind) : Data := .text kind.text

def ofData? (d : Data) : Option EventKind := d.variant? names

end EventKind

namespace Payload

/-- A transfer from one address to another. -/
def legData (kind : EventKind) (sender receiver : Address) (value : Amount) : Data :=
  .record [("kind", kind.toData), ("from", sender.toData), ("to", receiver.toData),
    ("value", value.toData)]

/-- A change of what a participant has in a channel. -/
def channelData (kind : EventKind) (channel : String) (participant : Address)
    (name : String) (total : Amount) : Data :=
  .record [("kind", kind.toData), ("channel_id", .text channel),
    ("participant", participant.toData), (name, total.toData)]

def toData : Payload → Data
  | erc20Transfer sender receiver value => legData .erc20Transfer sender receiver value
  | nativeTransfer sender receiver value => legData .nativeTransfer sender receiver value
  | channelDeposit channel participant total =>
    channelData .channelDeposit channel participant "total_deposit" total
  | channelWithdraw channel participant total =>
    channelData .channelWithdraw channel participant "total_withdraw" total

def legOfData? (make : Address → Address → Amount → Payload) (d : Data) :
    Option Payload := do
  let p ← d.parts? ["from", "to", "value"]
  return make (← p.need "from" Address.ofData?) (← p.need "to" Address.ofData?)
    (← p.need "value" Amount.ofData?)

def channelOfData? (make : String → Address → Amount → Payload) (name : String)
    (d : Data) :
    Option Payload := do
  let p ← d.parts? ["channel_id", "participant", name]
  return make (← p.need "channel_id" Data.text?) (← p.need "participant" Address.ofData?)
    (← p.need name Amount.ofData?)

def ofData? (d : Data) : Option Payload := do
  let (name, parts) ← d.tagged? "kind"
  match ← Data.named? EventKind.names name with
  | .erc20Transfer => legOfData? erc20Transfer parts
  | .nativeTransfer => legOfData? nativeTransfer parts
  | .channelDeposit => channelOfData? channelDeposit "total_deposit" parts
  | .channelWithdraw => channelOfData? channelWithdraw "total_withdraw" parts

end Payload

namespace EventKey

def ofData? (d : Data) : Option EventKey := do
  let p ← d.parts? ["chain", "tx_hash", "log_index"]
  return {
    chain := ← p.need "chain" ChainId.ofData?
    txHash := ← p.need "tx_hash" Data.text?
    logIndex := ← p.need "log_index" Data.word? }

end EventKey

namespace ChainEvent

def toData (e : ChainEvent) : Data :=
  .record [("chain", e.chain.toData), ("block_height", .ofWord e.blockHeight),
    ("block_hash", .text e.blockHash), ("tx_hash", .text e.txHash),
    ("log_index", .ofWord e.logIndex), ("address", e.address.toData),
    ("contract_kind", e.contractKind.toData), ("token", e.token.toData),
    ("payload", e.payload.toData)]

def ofData? (d : Data) : Option ChainEvent := do
  let p ← d.parts? ["chain", "block_height", "block_hash", "tx_hash",
    "log_index", "address", "contract_kind", "token", "payload"]
  return {
    chain := ← p.need "chain" ChainId.ofData?
    blockHeight := ← p.need "block_height" Data.word?
    blockHash := ← p.need "block_hash" Data.text?
    txHash := ← p.need "tx_hash" Data.text?
    logIndex := ← p.need "log_index" Data.word?
    address := ← p.need "address" Address.ofData?
    contractKind := ← p.need "contract_kind" ContractKind.ofData?
    token := ← p.need "token" Token.ofData?
    payload := ← p.need "payload" Payload.ofData? }

end ChainEvent

namespace Target

def toData (t : Target) : Data :=
  .record [("chain", t.chain.toData), ("address", t.address.toData),
    ("kind", t.kind.toData), ("events", .ofList EventKind.toData t.events),
    ("token", t.token.toData),
    ("label", .ofOption .text t.label)]

end Target

namespace TargetEntry

def ofData? (d : Data) : Option TargetEntry := do
  let p ← d.parts? ["chain_id", "address", "kind", "events", "token", "label"]
  return {
    chain := ← p.need "chain_id" ChainId.ofData?
    address := ← p.need "address" Address.ofData?
    kind := ← p.need "kind" ContractKind.ofData?
    events := ← p.orElse "events" [] (Data.list? EventKind.ofData?)
    token := ← p.orElse "token" none (Data.option? Address.ofData?)
    label := ← p.orElse "label" none (Data.option? Data.text?) }

end TargetEntry

namespace Catalog

/-- The entries of a targets file. -/
def entriesOfText? (text : String) : Option (List TargetEntry) := do
  let d ← Yaml.read? text
  let p ← d.parts? ["targets"]
  p.orElse "targets" [] (Data.list? TargetEntry.ofData?)

/-- The catalog that a targets file describes. -/
def ofText (text : String) : Except ConfigError Catalog :=
  match entriesOfText? text with
  | some entries => ofEntries entries
  | none => .error .malformed

/-- The catalog of a file that may be missing. -/
def ofFile : Option String → Except ConfigError Catalog
  | some text => ofText text
  | none => .error .unreadable

end Catalog

end Paywatch
