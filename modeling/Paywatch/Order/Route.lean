import Paywatch.Order.Basic
import Paywatch.Order.Policy
import Paywatch.Transfer.Basic

/-!
# Routes

A route says where the payment of an order is expected: at an address of a chain, or at
a Raiden node under an identifier. The match key of a destination is the text that the
transfers into it share.
-/

namespace Paywatch

/-- What a destination and the transfers into it have in common. -/
structure MatchKey where
  text : String
deriving DecidableEq, Repr

namespace MatchKey

def blockchain (chain : ChainId) (address : Address) : MatchKey :=
  ⟨"chain:" ++ chain.text ++ ":" ++ address.text⟩

def raiden (chain : ChainId) (node : Address) (identifier : UInt64) : MatchKey :=
  ⟨"raiden:" ++ chain.text ++ ":" ++ node.text ++ ":" ++ Text.decimalWord identifier⟩

/-- The key of the destination that a transfer paid into, if it can pay a route at all. -/
def ofTransfer? (t : Transfer) : Option MatchKey :=
  match t.origin, t.receiver with
  | .blockchain origin, .address receiver => some (blockchain origin.chain receiver)
  | .raiden origin, .address receiver =>
    if receiver = origin.node then
      some (raiden origin.chain origin.node origin.identifier)
    else none
  | _, _ => none

end MatchKey

/-- Where a payment is expected. -/
inductive Destination where
  | blockchain (chain : ChainId) (address : Address)
  | raiden (chain : ChainId) (node : Address) (identifier : UInt64)
deriving DecidableEq, Repr

namespace Destination

def chain : Destination → ChainId
  | blockchain chain _ => chain
  | raiden chain _ _ => chain

def matchKey : Destination → MatchKey
  | blockchain chain address => .blockchain chain address
  | raiden chain node identifier => .raiden chain node identifier

def isRaiden : Destination → Bool
  | blockchain .. => false
  | raiden .. => true

end Destination

/-- The heights of the blocks in which a payment counts. -/
structure HeightWindow where
  start : Height
  expiration : Height
deriving DecidableEq, Repr

namespace HeightWindow

def contains (w : HeightWindow) (height : Height) : Bool :=
  w.start ≤ height && height ≤ w.expiration

end HeightWindow

inductive RouteStatus where
  | «open» | consumed
deriving DecidableEq, Repr

namespace RouteStatus

/-- The number that stands for a status in tables. -/
def code : RouteStatus → Int
  | «open» => 0
  | consumed => 10

def ofCode? (n : Int) : Option RouteStatus :=
  [«open», consumed].find? (·.code == n)

def text : RouteStatus → String
  | «open» => "OPEN"
  | consumed => "CONSUMED"

end RouteStatus

structure Route where
  id : RouteId
  orderId : OrderId
  destination : Destination
  token : Token
  policy : AmountPolicy
  window : Option HeightWindow
  status : RouteStatus
  consumedBy : Option TransferId
  createdAt : Instant
deriving DecidableEq

namespace Route

def isOpen (r : Route) : Bool := r.status == .open

/-- A payment in a block of this height falls into the window. One without a block
counts only where there is no window. -/
def acceptsHeight (r : Route) (height : Option Height) : Bool :=
  match r.window, height with
  | none, _ => true
  | some window, some height => window.contains height
  | some _, none => false

/-- The route after a transfer settled it. -/
def consume (r : Route) (transfer : TransferId) : Route :=
  { r with status := .consumed, consumedBy := some transfer }

end Route

/-- A destination as a caller asks for it: Raiden identifiers are given out on opening. -/
inductive RouteTarget where
  | blockchain (chain : ChainId) (address : Address)
  | raiden (chain : ChainId) (node : Address)
deriving DecidableEq, Repr

namespace RouteTarget

def chain : RouteTarget → ChainId
  | blockchain chain _ => chain
  | raiden chain _ => chain

/-- The destination, with the identifier that a Raiden route is given. -/
def destination (identifier : UInt64) : RouteTarget → Destination
  | blockchain chain address => .blockchain chain address
  | raiden chain node => .raiden chain node identifier

end RouteTarget

/-- Identifiers given out lie above every millisecond count that a node makes up itself,
and are exact in a float. -/
def isGivenIdentifier (n : UInt64) : Bool := 1 <<< 48 ≤ n.toNat && n.toNat ≤ 1 <<< 53 - 1

structure RouteRequest where
  orderId : OrderId
  target : RouteTarget
  token : Token
  policy : Option AmountPolicy
  window : Option HeightWindow
deriving DecidableEq, Repr

/-- Why an order or a route is refused. -/
inductive ReconcileError where
  /-- A plan used a route or a transfer twice. -/
  | duplicateRouteConsumption (route : RouteId) (transfer : TransferId)
  | orderNotFound (order : OrderId)
  | orderNotOpen (order : OrderId) (status : OrderStatus)
  | tokenMismatch (order route : Token)
  | invalidRoute (reason : String)
  | invalidAmount
deriving DecidableEq, Repr

namespace ReconcileError

def message : ReconcileError → String
  | duplicateRouteConsumption route transfer =>
    "Duplicate route consumption: route " ++ route.text ++ ", transfer " ++ transfer.text
  | orderNotFound order => "Order not found: " ++ order.text
  | orderNotOpen order status =>
    "Order " ++ order.text ++ " is " ++ status.text
      ++ ", routes can only be opened on open orders"
  | tokenMismatch order route =>
    "Route token " ++ route.text ++ " does not match order token " ++ order.text
  | invalidRoute reason => "Invalid route: " ++ reason
  | invalidAmount => "Amount must be greater than zero"

/-- A fatal error shows that an invariant is broken; any other is a fault
of the caller. -/
def isFatal : ReconcileError → Bool
  | duplicateRouteConsumption .. => true
  | _ => false

end ReconcileError

namespace RouteRequest

/-- The route that answers a request for an order. -/
def build (rules : MatchingRules) (request : RouteRequest) (order : Order) (stamp : Stamp)
    (identifier : UInt64) : Except ReconcileError Route := do
  if !order.isOpen then throw (.orderNotOpen order.id order.status)
  if request.token ≠ order.token then throw (.tokenMismatch order.token request.token)
  let destination := request.target.destination identifier
  if destination.chain ≠ request.token.chain then
    throw (.invalidRoute ("destination chain " ++ destination.chain.text
      ++ " differs from token chain " ++ request.token.chain.text))
  match request.window with
  | none => pure ()
  | some window =>
    if destination.isRaiden then
      throw (.invalidRoute "payment windows apply to blockchain routes only")
    if window.expiration < window.start then
      throw (.invalidRoute ("window starts at " ++ Text.decimalWord window.start
        ++ " after expiration " ++ Text.decimalWord window.expiration))
  return {
    id := ⟨stamp.ulid⟩
    orderId := order.id
    destination
    token := request.token
    policy := request.policy.getD rules.defaultPolicy
    window := request.window
    status := .open
    consumedBy := none
    createdAt := stamp.time }

end RouteRequest

end Paywatch
