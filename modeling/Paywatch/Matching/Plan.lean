import Paywatch.Order.Deposit
import Paywatch.Order.Route
import Paywatch.Sorting
import Paywatch.Table

/-!
# Matching payments with routes

A plan says which routes a batch of transfers settles and which deposits it makes.
Confirmed transfers are taken from the oldest on. Each settles at most one route: of
those that are open and take its token, height and amount the one that was opened first.
What one transfer settles is gone for the next.
-/

namespace Paywatch

/-- One route settled by one transfer. -/
structure Claim where
  routeId : RouteId
  orderId : OrderId
  transferId : TransferId
  chain : ChainId
  amount : Amount
  confirmedAtHeight : Option Height
deriving DecidableEq

namespace Claim

/-- The first claim whose route or transfer an earlier one has used. -/
def firstRepeated (routes : List RouteId) (transfers : List TransferId) :
    List Claim → Option Claim
  | [] => none
  | c :: rest =>
    if routes.contains c.routeId || transfers.contains c.transferId then some c
    else firstRepeated (c.routeId :: routes) (c.transferId :: transfers) rest

/-- Every route and every transfer is used at most once. -/
def check (claims : List Claim) : Except ReconcileError Unit :=
  match firstRepeated [] [] claims with
  | some c => .error (.duplicateRouteConsumption c.routeId c.transferId)
  | none => .ok ()

end Claim

/-- A deposit to be recorded. -/
structure DepositDraft where
  trackerId : TrackerId
  externalRef : String
  transferId : TransferId
  chain : ChainId
  height : Option Height
deriving DecidableEq

namespace DepositDraft

/-- The deposit, once it is given an identifier and a time. -/
def record (d : DepositDraft) (stamp : Stamp) : Deposit :=
  ⟨⟨stamp.ulid⟩, d.trackerId, d.externalRef, d.transferId, d.chain, d.height, stamp.time⟩

end DepositDraft

/-- What a batch of transfers settles. -/
structure Draft where
  claims : List Claim
  deposits : List DepositDraft
deriving DecidableEq, Inhabited

/-- A draft whose deposits have their identifiers. -/
structure Plan where
  claims : List Claim
  deposits : List Deposit
deriving DecidableEq, Inhabited

namespace Plan

def empty : Plan := ⟨[], []⟩

def isEmpty (p : Plan) : Bool := p.claims.isEmpty && p.deposits.isEmpty

end Plan

/-- The open routes that may be settled, their orders, the trackers of the chain, and the
transfers that made a deposit already. -/
structure MatchContext where
  orders : Table OrderId Order
  routes : List Route
  trackers : List DepositTracker
  deposited : List TransferId
deriving Inhabited

/-- A route that a transfer could settle: its place in the context, and
what its order owes. -/
structure Candidate where
  index : Nat
  route : Route
  due : Amount

namespace MatchingRules

/-- An amount settles a route of a policy whose order owes `due`. -/
def acceptsAmount (rules : MatchingRules) (policy : AmountPolicy) (amount due : Amount) :
    Bool :=
  !amount.isZero &&
    match policy with
    | .exact => amount == due
    | .atLeast => due ≤ amount || rules.partialFills

/-- What the order of a route owes, if the transfer may settle the route. -/
def eligible? (rules : MatchingRules) (ctx : MatchContext) (t : Transfer) (key : MatchKey)
    (route : Route) : Option Amount :=
  if route.isOpen && route.token == t.token && route.destination.matchKey == key
      && route.acceptsHeight t.originHeight then
    match ctx.orders.get? route.orderId with
    | some order =>
      if order.isOpen && rules.acceptsAmount route.policy t.amount order.due then
        some order.due
      else none
    | none => none
  else none

/-- The routes that a transfer may settle. -/
def candidates (rules : MatchingRules) (ctx : MatchContext) (t : Transfer)
    (key : MatchKey) : List Candidate :=
  ctx.routes.zipIdx.filterMap fun (route, index) =>
    (rules.eligible? ctx t key route).map fun due => ⟨index, route, due⟩

/-- The first candidate is settled before the second. -/
def prefers (rules : MatchingRules) (amount : Amount) (a b : Candidate) : Bool :=
  a.route.createdAt.before b.route.createdAt ||
    a.route.createdAt == b.route.createdAt &&
      match rules.tieBreak with
      | .oldestId => a.route.id < b.route.id
      | .closestAmount =>
        amount.distance a.due < amount.distance b.due ||
          amount.distance a.due == amount.distance b.due && a.route.id < b.route.id

/-- The route that a transfer settles. -/
def select? (rules : MatchingRules) (ctx : MatchContext) (t : Transfer) :
    Option Candidate :=
  (MatchKey.ofTransfer? t).bind fun key =>
    firstBy (rules.prefers t.amount) (rules.candidates ctx t key)

/-- The claim of a transfer on a candidate. -/
def claimOf (t : Transfer) (c : Candidate) : Claim :=
  ⟨c.route.id, c.route.orderId, t.id, c.route.destination.chain, t.amount,
    t.confirmedAtHeight⟩

/-- The context after a transfer settled a candidate. -/
def consume (ctx : MatchContext) (t : Transfer) (c : Candidate) : MatchContext :=
  { ctx with
    routes := ctx.routes.modify c.index (·.consume t.id)
    orders := ctx.orders.modify c.route.orderId (·.pay t.amount) }

/-- The deposit of a transfer, unless it made one already. -/
def deposit? (ctx : MatchContext) (t : Transfer) : Option DepositDraft :=
  if ctx.deposited.contains t.id then none
  else
    (ctx.trackers.find? (·.accepts t)).map fun tracker =>
      ⟨tracker.id, tracker.externalRef, t.id, tracker.chain, t.originHeight⟩

/-- Adds what one transfer settles. -/
def planOne (rules : MatchingRules) (state : Draft × MatchContext) (t : Transfer) :
    Draft × MatchContext :=
  let (draft, ctx) := state
  let (draft, ctx) := match rules.select? ctx t with
    | some c => ({ draft with claims := draft.claims ++ [claimOf t c] }, consume ctx t c)
    | none => (draft, ctx)
  match deposit? ctx t with
  | some d =>
    ({ draft with deposits := draft.deposits ++ [d] },
      { ctx with deposited := ctx.deposited ++ [t.id] })
  | none => (draft, ctx)

/-- The confirmed ones of a list of transfers, oldest first. -/
def inOrder (ts : List Transfer) : List Transfer :=
  sortBy Transfer.createdBefore (ts.filter (·.status == .confirmed))

/-- What the transfers settle, and the context afterwards. -/
def planAll (rules : MatchingRules) (ctx : MatchContext) (ts : List Transfer) :
    Draft × MatchContext :=
  (inOrder ts).foldl rules.planOne (⟨[], []⟩, ctx)

/-- The plan for a list of transfers. -/
def plan (rules : MatchingRules) (ctx : MatchContext) (ts : List Transfer) :
    Except ReconcileError Draft :=
  let draft := (rules.planAll ctx ts).1
  (Claim.check draft.claims).map fun _ => draft

end MatchingRules

end Paywatch
