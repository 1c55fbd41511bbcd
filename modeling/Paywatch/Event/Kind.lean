/-!
# Kinds of contracts and events

What a watched target is, and what it can report.
-/

namespace Paywatch

inductive ContractKind where
  | erc20 | tokenNetwork | native
deriving DecidableEq, Repr

inductive EventKind where
  | erc20Transfer | channelDeposit | channelWithdraw | nativeTransfer
deriving DecidableEq, Repr

namespace EventKind

def text : EventKind → String
  | erc20Transfer => "erc20_transfer"
  | channelDeposit => "channel_deposit"
  | channelWithdraw => "channel_withdraw"
  | nativeTransfer => "native_transfer"

end EventKind

namespace ContractKind

def text : ContractKind → String
  | erc20 => "erc20"
  | tokenNetwork => "token_network"
  | native => "native"

/-- The events a contract of this kind can emit. All of them are watched unless a
target names its own. -/
def events : ContractKind → List EventKind
  | erc20 => [.erc20Transfer]
  | tokenNetwork => [.channelDeposit, .channelWithdraw]
  | native => [.nativeTransfer]

end ContractKind

end Paywatch
