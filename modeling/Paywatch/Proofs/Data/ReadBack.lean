import Paywatch.Notice.Document
import Paywatch.Order.Document
import Paywatch.Proofs.Data.Written
import Paywatch.Transfer.Document

/-!
# Documents are read back

Blocks, events, transfers, orders, routes, trackers, deposits and notices are
written as data and read from it without loss, whichever of their variants and
optional parts they have.
-/

namespace Paywatch

open Data

@[simp] theorem Block.ofData?_toData (b : Block) : ofData? b.toData = some b := by
  simp [ofData?, toData]

@[simp] theorem Token.ofData?_toData (t : Token) : ofData? t.toData = some t := by
  cases t <;> simp [ofData?, toData]

@[simp] theorem ContractKind.ofData?_toData (kind : ContractKind) :
    ofData? kind.toData = some kind := by
  cases kind <;> rfl

@[simp] theorem EventKind.ofData?_toData (kind : EventKind) :
    ofData? kind.toData = some kind := by
  cases kind <;> rfl

theorem EventKind.named?_text (kind : EventKind) :
    named? names kind.text = some kind := by
  cases kind <;> rfl

@[simp] theorem Payload.ofData?_toData (p : Payload) : ofData? p.toData = some p := by
  cases p <;> simp [ofData?, toData, legData, channelData, EventKind.toData,
    EventKind.named?_text, legOfData?, channelOfData?]

@[simp] theorem ChainEvent.ofData?_toData (e : ChainEvent) :
    ofData? e.toData = some e := by
  simp [ofData?, toData]

@[simp] theorem TransferStatus.ofData?_toData (s : TransferStatus) :
    ofData? s.toData = some s := by
  cases s <;> rfl

@[simp] theorem Direction.ofData?_toData (d : Direction) : ofData? d.toData = some d := by
  cases d <;> rfl

@[simp] theorem Party.ofData?_toData (p : Party) : ofData? p.toData = some p := by
  cases p <;> simp [ofData?, toData, wrapped?]

@[simp] theorem Execution.ofData?_toData (e : Execution) : ofData? e.toData = some e := by
  simp [ofData?, toData, Parts.optional_head word?_ofWord fun _ => rfl]

@[simp] theorem Confirmation.ofData?_toData (c : Confirmation) :
    ofData? c.toData = some c := by
  simp [ofData?, toData, Parts.optional_head word?_ofWord fun _ => rfl]

@[simp] theorem ChainOrigin.ofData?_toData (o : ChainOrigin) :
    ofData? o.toData = some o := by
  simp [ofData?, toData]

@[simp] theorem RaidenOrigin.ofData?_toData (o : RaidenOrigin) :
    ofData? o.toData = some o := by
  simp [ofData?, toData]

namespace Transfer

/-- What stands under the kind of a transfer, whichever of the three kinds it is. -/
theorem kindOfData?_kindData (t : Transfer) :
    kindOfData? t.kindData = some (t.origin, t.execution, t.confirmation) := by
  cases origin : t.origin <;> simp [kindOfData?, kindData, origin, Origin.text,
    Parts.optional_head text?_text fun _ => rfl,
    Parts.optional_head Execution.ofData?_toData fun _ => rfl,
    Parts.optional_head Confirmation.ofData?_toData fun _ => rfl]

@[simp] theorem ofData?_toData (t : Transfer) : ofData? t.toData = some t := by
  simp [ofData?, toData, kindOfData?_kindData]

end Transfer

@[simp] theorem AmountPolicy.ofData?_toData (p : AmountPolicy) :
    ofData? p.toData = some p := by
  cases p <;> rfl

@[simp] theorem OrderStatus.ofData?_toData (s : OrderStatus) :
    ofData? s.toData = some s := by
  cases s <;> rfl

@[simp] theorem RouteStatus.ofData?_toData (s : RouteStatus) :
    ofData? s.toData = some s := by
  cases s <;> rfl

@[simp] theorem Order.ofData?_toData (o : Order) : ofData? o.toData = some o := by
  simp [ofData?, toData]

@[simp] theorem Destination.ofData?_toData (d : Destination) :
    ofData? d.toData = some d := by
  cases d <;> simp [ofData?, toData]

@[simp] theorem HeightWindow.ofData?_toData (w : HeightWindow) :
    ofData? w.toData = some w := by
  simp [ofData?, toData]

@[simp] theorem Route.ofData?_toData (r : Route) : ofData? r.toData = some r := by
  simp [ofData?, toData, Parts.optional_head HeightWindow.ofData?_toData fun _ => rfl,
    Parts.optional_head Id.ofData?_toData fun _ => rfl]

@[simp] theorem DepositTracker.ofData?_toData (t : DepositTracker) :
    ofData? t.toData = some t := by
  simp [ofData?, toData,
    Parts.optional_head Token.ofData?_toData fun t => by cases t <;> rfl]

@[simp] theorem Deposit.ofData?_toData (d : Deposit) : ofData? d.toData = some d := by
  simp [ofData?, toData, Parts.optional_head word?_ofWord fun _ => rfl]

@[simp] theorem Notice.ofData?_toData (n : Notice) : ofData? n.toData = some n := by
  cases n <;> simp [ofData?, toData, name, parts, endpointOfData?,
    Parts.optional_head word?_ofWord fun _ => rfl]

/-- Every block, event, transfer, order, route, tracker, deposit and notice is read back
as it was written:  no amount is too large, no height too high, and no variant or
optional part is lost. -/
theorem values_read_back :
    (∀ b : Block, Block.ofData? b.toData = some b)
      ∧ (∀ e : ChainEvent, ChainEvent.ofData? e.toData = some e)
      ∧ (∀ t : Transfer, Transfer.ofData? t.toData = some t)
      ∧ (∀ o : Order, Order.ofData? o.toData = some o)
      ∧ (∀ r : Route, Route.ofData? r.toData = some r)
      ∧ (∀ t : DepositTracker, DepositTracker.ofData? t.toData = some t)
      ∧ (∀ d : Deposit, Deposit.ofData? d.toData = some d)
      ∧ (∀ n : Notice, Notice.ofData? n.toData = some n)
      ∧ (∀ a : Amount, Amount.ofData? a.toData = some a)
      ∧ ∀ h : Height, (ofWord h).word? = some h :=
  ⟨Block.ofData?_toData, ChainEvent.ofData?_toData, Transfer.ofData?_toData,
    Order.ofData?_toData, Route.ofData?_toData, DepositTracker.ofData?_toData,
    Deposit.ofData?_toData,
    Notice.ofData?_toData, Amount.ofData?_toData, word?_ofWord⟩

end Paywatch
