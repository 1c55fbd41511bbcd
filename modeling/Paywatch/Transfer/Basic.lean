import Paywatch.Chain.Amount
import Paywatch.Chain.Block
import Paywatch.Chain.Token
import Paywatch.Event.Kind
import Paywatch.Time.Text
import Paywatch.Ulid

/-!
# Transfers

A transfer is one movement of value: on a chain, through a payment channel, or between
accounts of the books. It starts pending and ends confirmed or reverted; a transfer off
the chain is confirmed from the start.
-/

namespace Paywatch

/-- Where a transfer stands. -/
inductive TransferStatus where
  | pending | confirmed | reverted
deriving DecidableEq, Repr

namespace TransferStatus

/-- A status that no step leaves. -/
def isTerminal : TransferStatus → Bool
  | pending => false
  | confirmed => true
  | reverted => true

/-- The number that stands for a status in tables. -/
def code : TransferStatus → Int
  | pending => 0
  | confirmed => 10
  | reverted => -10

def ofCode? (n : Int) : Option TransferStatus :=
  [pending, confirmed, reverted].find? (·.code == n)

def text : TransferStatus → String
  | pending => "PENDING"
  | confirmed => "CONFIRMED"
  | reverted => "REVERTED"

end TransferStatus

/-- Who sends or receives. -/
inductive Party where
  | address (address : Address)
  /-- An account of the books. -/
  | account (name : String)
deriving DecidableEq, Repr

namespace Party

def address? : Party → Option Address
  | address a => some a
  | account _ => none

def text : Party → String
  | address a => a.text
  | account name => "account:" ++ name

end Party

/-- When a transfer took place, and in which block. -/
structure Execution where
  time : Instant
  height : Option Height
deriving DecidableEq

/-- When a transfer was found final, and at which head of its chain. -/
structure Confirmation where
  time : Instant
  height : Option Height
deriving DecidableEq

/-- The log or transaction behind an on-chain transfer. -/
structure ChainOrigin where
  chain : ChainId
  blockHeight : Height
  blockHash : String
  txHash : String
  logIndex : UInt64
  eventKind : EventKind
  /-- The watched target that reported the movement. -/
  contract : Address
deriving DecidableEq, Repr

inductive Direction where
  | received | sent
deriving DecidableEq, Repr

/-- The payment behind a transfer through a Raiden channel. -/
structure RaidenOrigin where
  chain : ChainId
  /-- The own node that reported the payment. -/
  node : Address
  identifier : UInt64
  partner : Address
  direction : Direction
  logTime : Instant
deriving DecidableEq

/-- Where a transfer comes from. -/
inductive Origin where
  | internal (memo : Option String)
  | blockchain (origin : ChainOrigin)
  | raiden (origin : RaidenOrigin)
deriving DecidableEq

namespace Origin

def text : Origin → String
  | internal _ => "internal"
  | blockchain _ => "blockchain"
  | raiden _ => "raiden"

end Origin

/-- What a new record is given at its creation. -/
structure Stamp where
  ulid : Ulid
  time : Instant
deriving DecidableEq

structure Transfer where
  id : TransferId
  amount : Amount
  token : Token
  sender : Party
  receiver : Party
  status : TransferStatus
  createdAt : Instant
  origin : Origin
  execution : Option Execution
  confirmation : Option Confirmation
deriving DecidableEq

/-- Why a transfer cannot be made or changed. -/
inductive TransferError where
  | unmappedEventKind (contract : ContractKind) (event : EventKind)
  | invalidTransition (id : TransferId) (source target : TransferStatus)
  | alreadyConfirmed (id : TransferId)
  | alreadyExecuted (id : TransferId)
  | invalidAmount
deriving DecidableEq, Repr

namespace TransferError

def message : TransferError → String
  | unmappedEventKind contract event =>
    "Unmapped event kind " ++ event.text ++ " for " ++ contract.text ++ " target"
  | invalidTransition id source target =>
    "Transfer " ++ id.text ++ ": invalid transition " ++ source.text ++
      " -> " ++ target.text
  | alreadyConfirmed id => "Transfer " ++ id.text ++ " already carries a confirmation"
  | alreadyExecuted id => "Transfer " ++ id.text ++ " already carries an execution"
  | invalidAmount => "Amount must be greater than zero"

/-- The short name of the cause. -/
def code : TransferError → String
  | unmappedEventKind .. => "UNMAPPED_EVENT_KIND"
  | invalidTransition .. => "INVALID_TRANSITION"
  | alreadyConfirmed _ => "ALREADY_CONFIRMED"
  | alreadyExecuted _ => "ALREADY_EXECUTED"
  | invalidAmount => "INVALID_AMOUNT"

end TransferError

namespace Transfer

/-- A transfer between accounts of the books, confirmed at once. -/
def ofAccounts (stamp : Stamp) (sender receiver : String) (token : Token)
    (amount : Amount) (memo : Option String) : Except TransferError Transfer :=
  if amount.isZero then .error .invalidAmount
  else .ok {
    id := ⟨stamp.ulid⟩
    amount, token
    sender := .account sender
    receiver := .account receiver
    status := .confirmed
    createdAt := stamp.time
    origin := .internal memo
    execution := some ⟨stamp.time, none⟩
    confirmation := some ⟨stamp.time, none⟩ }

/-- A transfer seen in a block, pending. -/
def ofBlock (stamp : Stamp) (origin : ChainOrigin) (token : Token)
    (sender receiver : Address) (amount : Amount) (executedAt : Instant) : Transfer where
  id := ⟨stamp.ulid⟩
  amount := amount
  token := token
  sender := .address sender
  receiver := .address receiver
  status := .pending
  createdAt := stamp.time
  origin := .blockchain origin
  execution := some ⟨executedAt, some origin.blockHeight⟩
  confirmation := none

/-- A payment through a channel, confirmed at once: the node's word is final. -/
def ofChannel (stamp : Stamp) (origin : RaidenOrigin) (token : Token)
    (sender receiver : Address) (amount : Amount) : Transfer where
  id := ⟨stamp.ulid⟩
  amount := amount
  token := token
  sender := .address sender
  receiver := .address receiver
  status := .confirmed
  createdAt := stamp.time
  origin := .raiden origin
  execution := some ⟨origin.logTime, none⟩
  confirmation := some ⟨stamp.time, none⟩

def chain (t : Transfer) : ChainId := t.token.chain

/-- The height of the block that holds the transfer, if it is on a chain. -/
def originHeight (t : Transfer) : Option Height :=
  match t.origin with
  | .blockchain origin => some origin.blockHeight
  | _ => none

def confirmedAtHeight (t : Transfer) : Option Height := t.confirmation.bind (·.height)

/-- The decimal form of a whole number. -/
def signedDecimal (n : Int) : String :=
  if n < 0 then "-" ++ Text.decimal n.natAbs else Text.decimal n.toNat

/-- Names the movement behind a transfer: two transfers with one key are the same
movement. The key of an on-chain transfer holds the block hash, so a transaction that
returns on another branch is a new movement. -/
def dedupeKey (t : Transfer) : String :=
  match t.origin with
  | .internal _ => "internal:" ++ t.id.text
  | .blockchain o =>
    "chain:" ++ o.chain.text ++ ":" ++ o.blockHash ++ ":" ++ o.txHash ++ ":"
      ++ Text.decimalWord o.logIndex
  | .raiden o =>
    "raiden:" ++ o.node.text ++ ":" ++ Text.decimalWord o.identifier ++ ":"
      ++ signedDecimal o.logTime.epochMillis

/-- A pending transfer becomes confirmed. -/
def confirm (t : Transfer) (c : Confirmation) : Except TransferError Transfer :=
  if t.status ≠ .pending then .error (.invalidTransition t.id t.status .confirmed)
  else if t.confirmation.isSome then .error (.alreadyConfirmed t.id)
  else .ok { t with confirmation := some c, status := .confirmed }

/-- A pending transfer becomes reverted. -/
def revert (t : Transfer) : Except TransferError Transfer :=
  if t.status ≠ .pending then .error (.invalidTransition t.id t.status .reverted)
  else .ok { t with status := .reverted }

/-- Adds the record of when the transfer took place. -/
def execute (t : Transfer) (e : Execution) : Except TransferError Transfer :=
  if t.execution.isSome then .error (.alreadyExecuted t.id)
  else .ok { t with execution := some e }

/-- The order in which transfers are matched: by creation, then by identifier. -/
def createdBefore (t u : Transfer) : Bool :=
  t.createdAt.before u.createdAt || (t.createdAt == u.createdAt && t.id < u.id)

end Transfer

end Paywatch
