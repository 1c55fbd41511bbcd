import Paywatch.Chain.Document
import Paywatch.Json.Reader
import Paywatch.Node.Basic
import Paywatch.Web.Talk

/-!
# Nodes on the web

How a question is put to a node by remote calls and how its answer is read. Calls
are numbered from one. A node may answer a call with nothing; where something has to
be there that is an error.
-/

namespace Paywatch

/-- A way to a node. -/
structure Rpc where
  chain : ChainId
  url : String
  /-- What proves to the node who asks. -/
  bearer : Option String := none
  /-- The number of the next call. -/
  nextId : Nat := 1

namespace Rpc

/-- A talk with a node that may fail. -/
abbrev Dialog := ExceptT ProviderError (StateT Rpc Web.Talk)

variable {α : Type}

def fail (e : ProviderError) : Dialog α := throwThe ProviderError e

/-- A part of an answer that has to be a quantity. -/
def orInvalid (x : Except ChainDataError α) : Dialog α :=
  match x with
  | .ok a => return a
  | .error e => fail (.ofChainData e)

/-- The request of a call. -/
def request (rpc : Rpc) (method : String) (params : Data) : Web.Request where
  method := .post
  url := rpc.url
  bearer := rpc.bearer
  body := some (.record [("jsonrpc", .text "2.0"), ("method", .text method),
    ("params", params), ("id", .ofNat rpc.nextId)])

/-- An error that a node reports. -/
def faultOfData? (d : Data) : Option ProviderError := do
  let p ← d.parts? ["code", "message"]
  return .rpc (← p.need "code" Data.int64?) (← p.need "message" Data.text?)

/-- The result in the body of a response; a reported error goes before it. -/
def readBody (read : Data → Option α) (body : String) : Except ProviderError (Option α) :=
  let answer? : Option (Option α × Option ProviderError) := do
    let p ← (← Json.read? body).parts? ["result", "error"]
    return (← p.optional "result" read, ← p.optional "error" faultOfData?)
  match answer? with
  | some (result, none) => .ok result
  | some (_, some e) => .error e
  | none => .error (.invalidResponse ("Failed to parse response: " ++ Web.unreadable))

/-- The result in a response. -/
def readOutcome (read : Data → Option α) : Web.Outcome → Except ProviderError (Option α)
  | .error reason => .error (.rpcConnection ("HTTP request failed: " ++ reason))
  | .ok response =>
    if Web.isSuccess response.status then readBody read response.body
    else .error (.rpcConnection ("HTTP status " ++ Web.statusText response.status))

/-- Makes one call. -/
def call? (method : String) (params : Data) (read : Data → Option α) :
    Dialog (Option α) := do
  let rpc ← getThe Rpc
  set { rpc with nextId := rpc.nextId + 1 }
  match readOutcome read
    (← (Web.Talk.ask (rpc.request method params) : StateT Rpc Web.Talk _)) with
  | .ok result => return result
  | .error e => fail e

/-- Makes one call that has to have a result. -/
def call (method : String) (params : Data) (read : Data → Option α) : Dialog α := do
  match ← call? method params read with
  | some a => return a
  | none => fail (.invalidResponse ("No result for " ++ method))

/-- The head of a block as nodes write it. -/
structure Header where
  number : String
  hash : String
  parentHash : String
  timestamp : String
  baseFee : Option String

def Header.ofData? (d : Data) : Option Header := do
  let p ← d.parts? ["number", "hash", "parentHash", "timestamp", "baseFeePerGas"]
  return {
    number := ← p.need "number" Data.text?
    hash := ← p.need "hash" Data.text?
    parentHash := ← p.need "parentHash" Data.text?
    timestamp := ← p.need "timestamp" Data.text?
    baseFee := ← p.orElse "baseFeePerGas" none (Data.option? Data.text?) }

/-- The block of a head; the node has to have sent the one that was asked for. -/
def Header.block (h : Header) (chain : ChainId) (asked : Height) : Dialog Block := do
  let number ← orInvalid (Quantity.word h.number)
  if number ≠ asked then
    fail (.invalidResponse ("Asked for block " ++ Text.decimalWord asked ++
      " but node returned " ++ Text.decimalWord number))
  let timestamp ← orInvalid (Quantity.word h.timestamp)
  return .ofRaw chain number h.hash h.parentHash timestamp.toInt64

/-- A log as nodes write it. -/
structure RawLog where
  address : String
  topics : List String
  data : String
  txHash : Option String
  index : Option String
  blockHash : Option String
  removed : Bool

def RawLog.ofData? (d : Data) : Option RawLog := do
  let p ← d.parts? ["address", "topics", "data", "transactionHash", "logIndex",
    "blockHash", "removed"]
  return {
    address := ← p.need "address" Data.text?
    topics := ← p.need "topics" (Data.list? Data.text?)
    data := ← p.need "data" Data.text?
    txHash := ← p.optional "transactionHash" Data.text?
    index := ← p.optional "logIndex" Data.text?
    blockHash := ← p.optional "blockHash" Data.text?
    removed := ← p.orElse "removed" false Data.bool? }

/-- The log with its texts in lower case. -/
def RawLog.log (l : RawLog) (asked : String) : Dialog Log := do
  let index ←
    match l.index with
    | some index => orInvalid (Quantity.word index)
    | none => fail (.invalidResponse "log without index")
  let txHash ←
    match l.txHash with
    | some hash => pure (Text.lower hash)
    | none => fail (.invalidResponse "log without tx")
  return {
    address := Text.lower l.address
    topics := l.topics.map Text.lower
    data := l.data
    txHash, index
    blockHash := Text.lower (l.blockHash.getD asked)
    removed := l.removed }

/-- A transaction as nodes write it. -/
structure RawTx where
  hash : String
  index : Option String
  sender : Option String
  receiver : Option String
  value : String

def RawTx.ofData? (d : Data) : Option RawTx := do
  let p ← d.parts? ["hash", "transactionIndex", "from", "to", "value"]
  return {
    hash := ← p.need "hash" Data.text?
    index := ← p.orElse "transactionIndex" none (Data.option? Data.text?)
    sender := ← p.optional "from" Data.text?
    receiver := ← p.optional "to" Data.text?
    value := ← p.need "value" Data.text? }

def RawTx.tx (t : RawTx) : Dialog Tx := do
  let index ←
    match t.index with
    | some index => orInvalid (Quantity.word index)
    | none => fail (.invalidResponse ("tx " ++ t.hash ++ " without index"))
  return ⟨Text.lower t.hash, index, t.sender.map Text.lower, t.receiver.map Text.lower,
    t.value⟩

/-- The transactions of a block that is written out. -/
def rawTxs? (d : Data) : Option (List RawTx) := do
  let p ← d.parts? ["transactions"]
  p.need "transactions" (Data.list? RawTx.ofData?)

/-- A quantity of coins, if it is there. -/
def amount? : Option String → Dialog (Option Amount)
  | some text => return some (← orInvalid (Amount.ofQuantity text))
  | none => return none

def head : Dialog Height := do
  orInvalid (Quantity.word (← call "eth_blockNumber" .null Data.text?))

def block (height : Height) : Dialog (Option Block) := do
  let chain := (← getThe Rpc).chain
  let number := String.ofList ('0' :: 'x' :: Text.Digits.write 16 height.toNat)
  match ← call? "eth_getBlockByNumber" (.list [.text number, .bool false])
    Header.ofData? with
  | some h => return some (← h.block chain height)
  | none => return none

/-- The logs of contracts in a block. Nothing is asked about no contracts. -/
def logs (blockHash : String) (contracts : List Address) : Dialog (List Log) := do
  if contracts.isEmpty then return []
  let filter : Data := .record [("blockHash", .text blockHash),
    ("address", .ofList Address.toData contracts)]
  let found ← call "eth_getLogs" (.list [filter]) (Data.list? RawLog.ofData?)
  found.mapM (·.log blockHash)

def transactions (blockHash : String) : Dialog (List Tx) := do
  let found ← call "eth_getBlockByHash" (.list [.text blockHash, .bool true]) rawTxs?
  found.mapM RawTx.tx

/-- Nodes that catch up say how far they are; the others say no. -/
def synced : Dialog Bool :=
  call "eth_syncing" .null fun d =>
    match d with
    | .bool catchingUp => some !catchingUp
    | _ => some false

/-- The fees of now. Chains without a base fee are not asked for a priority fee,
which they do not know. -/
def fees : Dialog FeeSample := do
  let header ← call? "eth_getBlockByNumber" (.list [.text "latest", .bool false])
    Header.ofData?
  let baseFee ← amount? (header.bind (·.baseFee))
  let maxPriorityFee ←
    match baseFee with
    | some _ => do amount? (← call? "eth_maxPriorityFeePerGas" .null Data.text?)
    | none => pure none
  return ⟨baseFee, maxPriorityFee, ← amount? (← call? "eth_gasPrice" .null Data.text?)⟩

/-- Puts a question to the node. -/
def dialog : (q : Query) → Dialog q.Answer
  | .head => head
  | .block height => block height
  | .logs blockHash contracts => logs blockHash contracts
  | .transactions blockHash => transactions blockHash
  | .synced => synced
  | .fees => fees

/-- Puts a question to the node; gives the reply and the way for the next question. -/
def ask (rpc : Rpc) (q : Query) : Web.Talk (q.Reply × Rpc) := (dialog q).run rpc

end Rpc

end Paywatch
