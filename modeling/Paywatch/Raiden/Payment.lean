import Paywatch.Chain.Document
import Paywatch.Text.Quoted
import Paywatch.Transfer.Basic

/-!
# Payments through Raiden channels

A Raiden node keeps a history of its payments. Successful ones, sent or received, become
transfers; everything else in the history is passed over.
-/

namespace Paywatch

/-- One entry of the payment history of a Raiden node. -/
structure PaymentEvent where
  event : String
  identifier : Nat
  amount : Amount
  initiator : Option String
  target : Option String
  logTime : String
  tokenAddress : Option String
deriving DecidableEq, Repr

namespace PaymentEvent

/-- Nodes write large numbers as decimal texts. -/
def amountOfData? (d : Data) : Option Amount :=
  match d.text? with
  | some s =>
    (Text.Digits.readUnsigned 10 (1 <<< 128) (Text.trim s.toList)).bind Amount.ofNat?
  | none => d.word?.bind fun n => Amount.ofNat? n.toNat

def ofData? (d : Data) : Option PaymentEvent := do
  let p ← d.parts? ["event", "identifier", "amount", "initiator", "target", "log_time",
    "token_address"]
  return {
    event := ← p.need "event" Data.text?
    identifier := (← p.need "identifier" amountOfData?).units
    amount := ← p.need "amount" amountOfData?
    initiator := ← p.orElse "initiator" none (Data.option? Data.text?)
    target := ← p.orElse "target" none (Data.option? Data.text?)
    logTime := ← p.need "log_time" Data.text?
    tokenAddress := ← p.orElse "token_address" none (Data.option? Data.text?) }

end PaymentEvent

/-- Why an entry of a history is no payment that can be used. -/
inductive PaymentError where
  | malformed (reason : String)
  | zeroAmount
deriving DecidableEq, Repr

namespace PaymentError

def message : PaymentError → String
  | malformed reason => "Malformed payment event: " ++ reason
  | zeroAmount => "Payment amount must be greater than zero"

end PaymentError

/-- A successful payment that one of the own nodes saw. -/
structure Payment where
  chain : ChainId
  node : Address
  token : Token
  identifier : UInt64
  amount : Amount
  partner : Address
  direction : Direction
  logTime : Instant
deriving DecidableEq

namespace Payment

/-- What names a payment that was received and one that was sent. -/
def receivedName : String := "EventPaymentReceivedSuccess"
def sentName : String := "EventPaymentSentSuccess"

/-- The direction of a successful payment and the text of its partner. -/
def side? (e : PaymentEvent) : Option (Direction × Option String) :=
  if e.event = receivedName then some (.received, e.initiator)
  else if e.event = sentName then some (.sent, e.target)
  else none

/-- Log times without an offset are universal time. -/
def readLogTime (s : String) : Except PaymentError Instant :=
  (Instant.ofLogTime s).mapError fun e =>
    .malformed ("log_time " ++ Text.quoted s ++ ": " ++ e.message)

/-- The payment that an entry reports; `none` for entries of another kind. -/
def ofEvent (chain : ChainId) (node : Address) (token : Token) (e : PaymentEvent) :
    Except PaymentError (Option Payment) :=
  match side? e with
  | none => .ok none
  | some (direction, partner) => do
    let partner ← match partner with
      | some text => (Address.ofText text).mapError fun e => .malformed e.message
      | none => throw (.malformed (e.event ++ " without partner address"))
    if UInt64.size ≤ e.identifier then
      throw (.malformed ("identifier " ++ Text.decimal e.identifier ++ " out of range"))
    return some {
      chain, node, token, partner, direction
      identifier := UInt64.ofNat e.identifier
      amount := e.amount
      logTime := ← readLogTime e.logTime }

def origin (p : Payment) : RaidenOrigin :=
  ⟨p.chain, p.node, p.identifier, p.partner, p.direction, p.logTime⟩

/-- The confirmed transfer of a payment. -/
def transfer (p : Payment) (stamp : Stamp) : Except PaymentError Transfer :=
  if p.amount.isZero then .error .zeroAmount
  else
    match p.direction with
    | .received => .ok (.ofChannel stamp p.origin p.token p.partner p.node p.amount)
    | .sent => .ok (.ofChannel stamp p.origin p.token p.node p.partner p.amount)

end Payment

end Paywatch
