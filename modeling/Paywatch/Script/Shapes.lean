import Paywatch.Event.Document
import Paywatch.Head.Message
import Paywatch.Matching.Plan
import Paywatch.Node.Basic
import Paywatch.Notice.Document
import Paywatch.Order.Document
import Paywatch.Script.Fields
import Paywatch.Transfer.Document

/-!
# Shapes

The values that scripts and their answers are made of. What a clock or a random
generator made is left out of answers, so that they can be compared.
-/

namespace Paywatch.Script

/-- A number of up to 128 bits, written as decimal text or as a number. -/
def bigNumber? (d : Data) (name : String) : Option Amount :=
  match field d name with
  | .text s => (Text.Digits.readUnsigned 10 (1 <<< 128) s.toList).bind Amount.ofNat?
  | d => (asWord? d).bind fun n => Amount.ofNat? n.toNat

def feeSample (d : Data) : FeeSample :=
  ⟨bigNumber? d "base_fee", bigNumber? d "max_priority_fee", bigNumber? d "gas_price"⟩

def blockRef (d : Data) : BlockRef := .ofRaw (word d "height" 0) (text d "hash")

def block (d : Data) : Block :=
  .ofRaw (chain d) (word d "height" 0) (text d "hash") (text d "parent_hash")
    (int64 d "timestamp")

def range (d : Data) : RevertedRange :=
  ⟨chain d, word d "from_height" 0, word d "to_height" 0, blockRef (field d "fork_point")⟩

def log (d : Data) : Log where
  address := text d "address"
  topics := (list d "topics").map fun t => (asText? t).getD ""
  data := text d "data"
  txHash := text d "tx_hash"
  index := word d "log_index" 0
  blockHash := text d "block_hash"
  removed := flag d "removed"

def tx (d : Data) : Tx where
  hash := text d "hash"
  index := word d "index" 0
  sender := text? d "from"
  receiver := text? d "to"
  value := text d "value"

def claim (d : Data) : Answer Claim := do
  return {
    routeId := ← typedField d "route_id" Id.ofData?
    orderId := ← typedField d "order_id" Id.ofData?
    transferId := ← typedField d "transfer_id" Id.ofData?
    chain := chain d
    amount := ← typedField d "amount" Amount.ofData?
    confirmedAtHeight := word? d "confirmed_at_height" }

/-- A transfer without the times at which the program made it, confirmed
it or booked it. -/
def masked (t : Transfer) : Data :=
  let kind := adjust "confirmation" (without ["confirmed_at"]) t.kindData
  let kind := match t.origin with
    | .internal _ => adjust "execution" (without ["executed_at"]) kind
    | _ => kind
  adjust "kind" (fun _ => kind) (without ["created_at"] t.toData)

def claimData (c : Claim) : Data :=
  .record [("route_id", c.routeId.toData), ("order_id", c.orderId.toData),
    ("transfer_id", c.transferId.toData), ("chain", c.chain.toData),
    ("amount", c.amount.toData),
    ("confirmed_at_height", .ofOption .ofWord c.confirmedAtHeight)]

/-- A notice without the identifier of a new deposit. -/
def noticeData (n : Notice) : Data := without ["deposit_id"] n.toData

/-- What a plan settles and how that is announced. -/
def planView (p : Plan) : List (String × Data) :=
  [("claims", .ofList claimData p.claims),
    ("deposits", .ofList (fun d => without ["id", "created_at"] d.toData) p.deposits),
    ("events", .ofList noticeData p.notices), ("empty", .bool p.isEmpty)]

/-- Matching rules, which are the usual ones if nothing is said. -/
def rules (d : Data) (name : String) : Answer MatchingRules :=
  match field d name with
  | .null => .ok {}
  | d => typed MatchingRules.ofData? d

/-- The targets of a chain; the accounts are looked for under these addresses. -/
def watchlistData (w : Watchlist) (addresses : List Address) : Data :=
  .record [("len", .ofNat w.size), ("empty", .bool w.isEmpty),
    ("has_native", .bool w.hasAccounts),
    ("contracts", .ofList Target.toData (w.contractAddresses.filterMap w.contract?)),
    ("native", .ofList Target.toData (addresses.filterMap w.account?))]

/-- What a catalog knows of some chains. -/
def catalogData (c : Catalog) (d : Data) : Answer Data := do
  let addresses ← typedList d "addresses" Address.ofData?
  let chains := (list d "chains").filterMap asWord?
  let chains := chains.map fun n =>
    (Text.decimalWord n, watchlistData (c.watchlist ⟨n⟩) addresses)
  return .record [("len", .ofNat c.size), ("empty", .bool (c.size == 0)),
    ("chains", .record (Data.lastEntries chains))]

/-- Recorded events by height, log index, transaction and block. -/
def eventRows (events : List ChainEvent) : Data :=
  let before (e f : ChainEvent) : Bool :=
    let heads := (e.blockHeight, e.logIndex) == (f.blockHeight, f.logIndex)
    e.blockHeight < f.blockHeight
      || (e.blockHeight == f.blockHeight && e.logIndex < f.logIndex)
      || (heads && e.txHash < f.txHash)
      || (heads && e.txHash == f.txHash && e.blockHash < f.blockHash)
  .ofList (fun e : ChainEvent => .list [.text e.key.text, .ofWord e.blockHeight,
    .text e.blockHash]) (sortBy before events)

def refRow (r : BlockRef) : Data := .list [.ofWord r.height, .text r.hash]

def routeRow (r : Route) : Data :=
  .list [r.id.toData, r.status.toData, .ofOption Id.toData r.consumedBy]

def rangeData (r : RevertedRange) : Data :=
  .record [("chain", r.chain.toData), ("from_height", .ofWord r.fromHeight),
    ("to_height", .ofWord r.toHeight), ("fork_point", r.forkPoint.toData)]

def messageData : Message → Data
  | .accepted b live => .record [("accepted", b.toData), ("live", .bool live)]
  | .reverted range => .record [("reverted", rangeData range)]
  | .unavailable attempt delay => .record [("unavailable", .record [
      ("attempt", .ofNat attempt.toNat),
        ("retry_in_ms", .ofNat (delay / nanosPerMilli))])]
  | .halted reason => .record [("halted", .text reason)]

end Paywatch.Script
