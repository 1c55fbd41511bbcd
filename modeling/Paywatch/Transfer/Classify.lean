import Paywatch.Event.Payload
import Paywatch.Transfer.Basic

/-!
# From events to transfers

Every event of a contract that can emit it is a movement with a sender, a receiver and
an amount.  A deposit moves value from the participant to the token network, a
withdrawal moves it back.
-/

namespace Paywatch

namespace ChainEvent

/-- Who pays whom how much, if the kind of contract can emit the event. -/
def legs? (e : ChainEvent) : Option (Address × Address × Amount) :=
  match e.contractKind, e.payload with
  | .erc20, .erc20Transfer sender receiver value => some (sender, receiver, value)
  | .native, .nativeTransfer sender receiver value => some (sender, receiver, value)
  | .tokenNetwork, .channelDeposit _ participant total =>
      some (participant, e.address, total)
  | .tokenNetwork, .channelWithdraw _ participant total =>
      some (e.address, participant, total)
  | _, _ => none

def origin (e : ChainEvent) : ChainOrigin :=
  ⟨e.chain, e.blockHeight, e.blockHash, e.txHash, e.logIndex, e.kind, e.address⟩

/-- The pending transfer of an event. -/
def transfer (e : ChainEvent) (stamp : Stamp) (executedAt : Instant) :
    Except TransferError Transfer :=
  match e.legs? with
  | some (sender, receiver, amount) =>
    .ok (Transfer.ofBlock stamp e.origin e.token sender receiver amount executedAt)
  | none => .error (.unmappedEventKind e.contractKind e.kind)

end ChainEvent

end Paywatch
