import Paywatch.Event.Decode
import Paywatch.Table

/-!
# Nodes made to order

A node whose chain is made block by block. Its chain can fork, it can be slow, offline
or behind, and it can be told what to answer next. The hash of a block follows from its
height and the number of its fork, so that one knows beforehand what will be seen.
-/

namespace Paywatch

structure ScriptedNode where
  chain : ChainId
  endpoint : String
  blocks : Table Height Block
  /-- Logs and transactions under the hashes of their blocks. -/
  logs : Table String (List Log)
  txs : Table String (List Tx)
  /-- The head it reports, if that is not its newest block. -/
  reportedHead : Option Height
  offline : Bool
  synced : Bool
  fees : FeeSample
  /-- The milliseconds that an answer takes. -/
  latency : Option Nat
  /-- What it answers for some heights, whatever its chain is. -/
  overrides : Table Height (Option Block)
  /-- The fates of the next calls: an error, or nothing special. -/
  script : List (Option ProviderError)
  /-- The number of calls that were not cut off by the script. -/
  calls : Nat

namespace ScriptedNode

def new (chain : ChainId) (endpoint : String) : ScriptedNode where
  chain := chain
  endpoint := endpoint
  blocks := .empty
  logs := .empty
  txs := .empty
  reportedHead := none
  offline := false
  synced := true
  fees := {}
  latency := none
  overrides := .empty
  script := []
  calls := 0

/-- The hash of the block of a fork at a height: both stand in eight
digits, or more if needed. -/
def blockHash (height : Height) (fork : UInt64) : String :=
  String.ofList ('0' :: 'x' :: (Text.padded 16 48 0xb10c ++ Text.padded 16 8 fork.toNat
    ++ Text.padded 16 8 height.toNat))

/-- The number of the fork that a hash tells: eight digits before the last eight. -/
def forkOf (hash : String) : UInt64 :=
  let digits := Quantity.digits hash
  let fork := (digits.drop (digits.length - 16)).take 8
  if digits.length < 16 then 0
  else match Text.Digits.readUnsigned 16 UInt64.size fork with
    | some n => UInt64.ofNat n
    | none => 0

def highest? (n : ScriptedNode) : Option Height :=
  n.blocks.entries.foldl (fun best e =>
    match best with
    | some h => some (if h < e.1 then e.1 else h)
    | none => some e.1) none

def blockAt? (n : ScriptedNode) (height : Height) : Option Block := n.blocks.get? height

/-- The newest block. -/
def tip? (n : ScriptedNode) : Option Block := n.highest?.bind n.blockAt?

/-- Makes the block at a height; its parent is the one below it, if there is one. -/
def make (n : ScriptedNode) (fork : UInt64) (height : Height) : ScriptedNode :=
  let below : Height := if height = 0 then 0 else height - 1
  let parent := if height = 0 then none else n.blockAt? below
  let parentHash := match parent with
    | some b => b.hash
    | none => blockHash below 0
  let timestamp : Int64 := 1700000000 + Int64.ofInt height.toNat * 12
  { n with
    blocks := n.blocks.insert height
      (.ofRaw n.chain height (blockHash height fork) parentHash timestamp) }

/-- Makes so many blocks upwards from a height. -/
def grow (n : ScriptedNode) (fork : UInt64) (start : Height) : Nat → ScriptedNode
  | 0 => n
  | count + 1 => (n.make fork start).grow fork (start + 1) count

/-- Makes the blocks of a fork upwards from a height, unless they would leave 64 bits. -/
def push (n : ScriptedNode) (fork : UInt64) (start : Height) (count : UInt64) :
    ScriptedNode :=
  n.grow fork start ((start + count).toNat - start.toNat)

/-- Makes more blocks of the fork of the newest one. -/
def extend (n : ScriptedNode) (count : UInt64) : ScriptedNode :=
  match n.tip? with
  | some b => n.push (forkOf b.hash) (b.height + 1) count
  | none => n.push 0 0 count

/-- Drops a block with its logs and transactions. -/
def drop (n : ScriptedNode) (b : Block) : ScriptedNode :=
  { n with
    blocks := n.blocks.erase b.height
    logs := n.logs.erase b.hash
    txs := n.txs.erase b.hash }

/-- Replaces the blocks from a height on by those of a fork. -/
def reorg (n : ScriptedNode) (height : Height) (fork : UInt64) : ScriptedNode :=
  match n.highest? with
  | some tip =>
    if height ≤ tip then
      let replaced := n.blocks.values.filter fun b => height ≤ b.height
      (replaced.foldl drop n).push fork height (tip - height + 1)
    else n
  | none => n

/-- Adds a log to the block at a height. -/
def addLog (n : ScriptedNode) (height : Height) (log : Log) : ScriptedNode :=
  match n.blockAt? height with
  | some b =>
    let logs := (n.logs.get? b.hash).getD []
    { n with logs := n.logs.insert b.hash (logs ++ [{ log with blockHash := b.hash }]) }
  | none => n

/-- Adds a transaction to the block at a height. -/
def addTx (n : ScriptedNode) (height : Height) (tx : Tx) : ScriptedNode :=
  match n.blockAt? height with
  | some b => { n with txs := n.txs.insert b.hash ((n.txs.get? b.hash).getD [] ++ [tx]) }
  | none => n

/-- The log of a transfer of tokens. -/
def transferLog (token sender receiver : Address) (amount : Amount) (txHash : String)
    (index : UInt64) : Log where
  address := token.text
  topics := [(EventKind.topic .erc20Transfer).getD "", sender.topic, receiver.topic]
  data := String.ofList ('0' :: 'x' :: Text.hexWidth 64 amount.units)
  txHash := normalHash txHash
  index := index
  blockHash := ""
  removed := false

/-- The head it reports. -/
def head? (n : ScriptedNode) : Option Height := n.reportedHead.or n.highest?

/-- The answer of a node that is not offline. -/
def answerOf (n : ScriptedNode) : (q : Query) → q.Reply
  | .head =>
    match n.head? with
    | some height => .ok height
    | none => .error (.invalidResponse "empty chain")
  | .block height => .ok (if n.head?.any (height ≤ ·) then n.blockAt? height else none)
  | .logs blockHash contracts =>
    .ok (((n.logs.get? (normalHash blockHash)).getD []).filter fun log =>
      contracts.any fun a => Text.sameIgnoringAsciiCase a.text log.address)
  | .transactions blockHash => .ok ((n.txs.get? (normalHash blockHash)).getD [])
  | .synced => .ok n.synced
  | .fees => .ok n.fees

/-- The answer to a call that began when the node was offline or not. -/
def answer (n : ScriptedNode) (offline : Bool) (q : Query) : q.Reply :=
  if offline then .error (.rpcConnection (n.endpoint ++ " is offline")) else n.answerOf q

/-- The answer that an override puts in the place of the chain. -/
def overridden? (n : ScriptedNode) : (q : Query) → Option q.Reply
  | .block height => (n.overrides.get? height).map .ok
  | .head => none
  | .logs _ _ => none
  | .transactions _ => none
  | .synced => none
  | .fees => none

/-- What the script or an override makes of a call at once. -/
def intercept (n : ScriptedNode) (q : Query) : Option q.Reply × ScriptedNode :=
  match n.script with
  | some e :: rest => (some (.error e), { n with script := rest })
  | none :: rest => (n.overridden? q, { n with script := rest })
  | [] => (n.overridden? q, n)

end ScriptedNode

end Paywatch
