import Paywatch.Chain.Amount
import Paywatch.Chain.Block
import Paywatch.Chain.Token
import Paywatch.Event.Kind

/-!
# Recorded events

A movement of value that a block reports about a watched target. Its key leaves the
block out: the same log on two branches has one key.
-/

namespace Paywatch

/-- What an event says. -/
inductive Payload where
  | erc20Transfer (sender receiver : Address) (value : Amount)
  | channelDeposit (channel : String) (participant : Address) (total : Amount)
  | channelWithdraw (channel : String) (participant : Address) (total : Amount)
  | nativeTransfer (sender receiver : Address) (value : Amount)
deriving DecidableEq, Repr

namespace Payload

def kind : Payload → EventKind
  | erc20Transfer .. => .erc20Transfer
  | channelDeposit .. => .channelDeposit
  | channelWithdraw .. => .channelWithdraw
  | nativeTransfer .. => .nativeTransfer

end Payload

/-- What tells recorded events apart. -/
structure EventKey where
  chain : ChainId
  txHash : String
  logIndex : UInt64
deriving DecidableEq, Repr

namespace EventKey

def text (key : EventKey) : String :=
  key.chain.text ++ ":" ++ key.txHash ++ ":" ++ Text.decimalWord key.logIndex

end EventKey

/-- An event of a watched target in a block. -/
structure ChainEvent where
  chain : ChainId
  blockHeight : Height
  blockHash : String
  txHash : String
  logIndex : UInt64
  /-- The contract that wrote the log, or the account that received coins. -/
  address : Address
  contractKind : ContractKind
  token : Token
  payload : Payload
deriving DecidableEq, Repr

namespace ChainEvent

def key (e : ChainEvent) : EventKey := ⟨e.chain, e.txHash, e.logIndex⟩

def kind (e : ChainEvent) : EventKind := e.payload.kind

end ChainEvent

end Paywatch
