import Paywatch.Chain.Address
import Paywatch.Chain.Amount
import Paywatch.Chain.Block

/-!
# Nodes

What a node of a chain can be asked, and what it answers. Logs and transactions are kept
as the node wrote them; `ProviderError` says why there is no answer.
-/

namespace Paywatch

/-- A log entry of a block. -/
structure Log where
  address : String
  topics : List String
  data : String
  txHash : String
  index : UInt64
  blockHash : String
  /-- The node dropped the log in a reorganisation. -/
  removed : Bool
deriving DecidableEq, Repr

/-- A transaction of a block. The value is a hexadecimal quantity. -/
structure Tx where
  hash : String
  index : UInt64
  sender : Option String
  receiver : Option String
  value : String
deriving DecidableEq, Repr

/-- Fees a node reports, in the smallest units. Old chains know only the gas price. -/
structure FeeSample where
  baseFee : Option Amount := none
  maxPriorityFee : Option Amount := none
  gasPrice : Option Amount := none
deriving DecidableEq, Repr, Inhabited

/-- Why a question to a chain has no answer. -/
inductive ProviderError where
  | rpcConnection (reason : String)
  | rpc (code : Int64) (reason : String)
  | timeout (millis : Nat)
  | blockNotFound (height : Height)
  | invalidResponse (reason : String)
  | unavailable (chain : ChainId) (attempts : Nat) (last : String)
deriving DecidableEq, Repr

namespace ProviderError

def message : ProviderError → String
  | rpcConnection reason => "RPC connection failed: " ++ reason
  | rpc code reason => "RPC error " ++ toString code ++ ": " ++ reason
  | timeout millis => "Call timed out after " ++ Text.decimal millis ++ " ms"
  | blockNotFound height => "Block not found at height " ++ Text.decimalWord height
  | invalidResponse reason => "Invalid response: " ++ reason
  | unavailable chain attempts last =>
    "All " ++ Text.decimal attempts ++ " providers for chain " ++ chain.text ++
      " failed: " ++ last

def ofChainData (e : ChainDataError) : ProviderError := .invalidResponse e.message

end ProviderError

/-- A question to a node. -/
inductive Query where
  /-- The height of the newest block. -/
  | head
  /-- The block at a height, if the node has it. -/
  | block (height : Height)
  /-- The logs of a block that come from these contracts. -/
  | logs (blockHash : String) (contracts : List Address)
  | transactions (blockHash : String)
  /-- Whether the node has caught up with its chain. -/
  | synced
  | fees
deriving DecidableEq, Repr

namespace Query

/-- What answers a question. -/
abbrev Answer : Query → Type
  | head => Height
  | block _ => Option Block
  | logs _ _ => List Log
  | transactions _ => List Tx
  | synced => Bool
  | fees => FeeSample

/-- The answer, or the reason why there is none. -/
abbrev Reply (q : Query) : Type := Except ProviderError q.Answer

/-- What a chain, rather than one node, answers: a block that is asked for
has to be found. -/
abbrev Found : Query → Type
  | head => Height
  | block _ => Block
  | logs _ _ => List Log
  | transactions _ => List Tx
  | synced => Bool
  | fees => FeeSample

/-- The answer of a node as an answer of the chain. A node without the
block has failed. -/
def found : (q : Query) → q.Answer → Except ProviderError q.Found
  | head, top => .ok top
  | block height, none => .error (.blockNotFound height)
  | block _, some b => .ok b
  | logs _ _, found => .ok found
  | transactions _, txs => .ok txs
  | synced, isSynced => .ok isSynced
  | fees, sample => .ok sample

/-- What an answer tells about the head of the node. -/
def observedHead : (q : Query) → q.Found → Option Height
  | head, top => some top
  | block _, _ => none
  | logs _ _, _ => none
  | transactions _, _ => none
  | synced, _ => none
  | fees, _ => none

end Query

end Paywatch
