import Paywatch.Chain.Amount
import Paywatch.Chain.Token
import Paywatch.Time.Text
import Paywatch.Ulid

/-!
# Payment orders

An order asks for an amount of a token. Payments add up; once they cover the
amount the order is paid.
-/

namespace Paywatch

inductive OrderStatus where
  | «open» | paid | expired
deriving DecidableEq, Repr

namespace OrderStatus

/-- The number that stands for a status in tables. -/
def code : OrderStatus → Int
  | «open» => 0
  | paid => 10
  | expired => -10

def ofCode? (n : Int) : Option OrderStatus :=
  [«open», paid, expired].find? (·.code == n)

def text : OrderStatus → String
  | «open» => "OPEN"
  | paid => "PAID"
  | expired => "EXPIRED"

end OrderStatus

structure Order where
  id : OrderId
  amount : Amount
  token : Token
  /-- What the caller knows the order by. -/
  reference : String
  status : OrderStatus
  totalPaid : Amount
  createdAt : Instant
deriving DecidableEq

namespace Order

/-- What is still owed. -/
def due (o : Order) : Amount := o.amount.sub o.totalPaid

def isOpen (o : Order) : Bool := o.status == .open

/-- Books a payment. -/
def pay (o : Order) (amount : Amount) : Order :=
  let total := o.totalPaid.addCapped amount
  { o with totalPaid := total, status := if o.amount ≤ total then .paid else o.status }

end Order

end Paywatch
