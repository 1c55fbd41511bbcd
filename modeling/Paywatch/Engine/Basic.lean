import Paywatch.Ingest.Worker
import Paywatch.Notice.Bus
import Paywatch.Raiden.Poller

/-!
# The engine

What callers can ask for: orders and their routes, deposit trackers, bookings
between accounts, and payments that a Raiden node reports. A new route is matched at
once with what was paid before. Orders, routes and trackers are refused for chains
that are not configured.
-/

namespace Paywatch

/-- Why a request is refused. -/
inductive EngineError where
  | config (e : ConfigError)
  | ledger (e : LedgerError)
  | reconcile (e : ReconcileError)
  | transfer (e : TransferError)
  | settle (e : SettleError)
  | raiden (e : RaidenError)
  | unknownChain (chain : ChainId)
deriving DecidableEq, Repr

namespace EngineError

def message : EngineError → String
  | config e => "Configuration error: " ++ e.message.getD "the file cannot be read"
  | ledger e => "Store error: " ++ e.message
  | reconcile e => e.message
  | transfer e => e.message
  | settle e => e.message
  | raiden e => "Raiden error: " ++ e.message
  | unknownChain chain => "Chain " ++ chain.text ++ " is not configured"

end EngineError

namespace RouteRequest

/-- The route of a request for an order, with a new identifier if it leads
to a Raiden node. -/
def open? (rules : MatchingRules) (request : RouteRequest) (order : Order) :
    Flow (Except ReconcileError Route) := do
  let identifier : UInt64 ←
    match request.target with
    | .blockchain .. => pure 0
    | .raiden .. => Flow.ask .identifier
  return request.build rules order (← Flow.ask .stamp) identifier

end RouteRequest

namespace Order

/-- A new order; it is open and nothing is paid. -/
def place (amount : Amount) (token : Token) (reference : String) : Flow Order := do
  let stamp ← Flow.ask .stamp
  let order : Order := ⟨⟨stamp.ulid⟩, amount, token, reference, .open, .zero, stamp.time⟩
  Flow.ledger (.insertOrder order)
  return order

/-- An open order expires; tells whether it was open. -/
def expire (id : OrderId) : Flow (Except EngineError Bool) := do
  return (← Flow.ledger (.expireOrder id)).mapError .ledger

end Order

namespace DepositTracker

/-- A new tracker. -/
def watch (externalRef : String) (chain : ChainId) (address : Address)
    (token : Option Token) :
    Flow DepositTracker := do
  let stamp ← Flow.ask .stamp
  let tracker : DepositTracker :=
    ⟨⟨stamp.ulid⟩, externalRef, chain, address, token, stamp.time⟩
  Flow.ledger (.insertTracker tracker)
  return tracker

end DepositTracker

namespace Settings

/-- The chain is configured. -/
def knows (s : Settings) (chain : ChainId) : Bool := s.chains.any (·.chain == chain)

/-- Creates an order of more than nothing. -/
def createOrder (s : Settings) (amount : Amount) (token : Token) (reference : String) :
    Flow (Except EngineError Order) := do
  if amount.isZero then return .error (.reconcile .invalidAmount)
  if !s.knows token.chain then return .error (.unknownChain token.chain)
  return .ok (← Order.place amount token reference)

/-- Matches a new route with the confirmed transfers that paid into its
destination before. -/
def rescan (s : Settings) (route : Route) : Flow (Except EngineError Unit) := do
  let earlier ← Flow.ledger (.unmatchedConfirmed route.destination.matchKey route.token)
  if earlier.isEmpty then return .ok ()
  match ← s.engine.rules.settle route.destination.chain [] earlier with
  | .error e => return .error (.settle e)
  | .ok _ => return .ok ()

/-- Opens a route; gives it as it stands after the matching. -/
def openRoute (s : Settings) (request : RouteRequest) : Flow (Except EngineError Route) :=
  do
  match ← Flow.ledger (.order request.orderId) with
  | none => return .error (.reconcile (.orderNotFound request.orderId))
  | some order =>
    match ← request.open? s.engine.rules order with
    | .error e => return .error (.reconcile e)
    | .ok route =>
      if !s.knows route.destination.chain then
        return .error (.unknownChain route.destination.chain)
      Flow.ledger (.insertRoute route)
      match ← s.rescan route with
      | .error e => return .error e
      | .ok () => return .ok ((← Flow.ledger (.route route.id)).getD route)

/-- Registers a deposit tracker. -/
def registerTracker (s : Settings) (externalRef : String) (chain : ChainId)
    (address : Address) (token : Option Token) :
    Flow (Except EngineError DepositTracker) := do
  if !s.knows chain then return .error (.unknownChain chain)
  return .ok (← DepositTracker.watch externalRef chain address token)

/-- Books a transfer between two accounts. -/
def recordInternal (s : Settings) (sender receiver : String) (token : Token)
    (amount : Amount) (memo : Option String) : Flow (Except EngineError Transfer) := do
  match Transfer.ofAccounts (← Flow.ask .stamp) sender receiver token amount memo with
  | .error e => return .error (.transfer e)
  | .ok t =>
    match ← s.engine.rules.settle t.chain [t] [] with
    | .error e => return .error (.settle e)
    | .ok _ => return .ok t

/-- Records a payment; `none` if it was recorded before. -/
def ingestPayment (s : Settings) (p : Payment) :
    Flow (Except EngineError (Option Transfer)) := do
  if !s.knows p.chain then return .error (.unknownChain p.chain)
  return (← p.ingest s.engine.rules).mapError .raiden

/-- The registry of the configured chains, without providers. -/
def registry (s : Settings) : Registry :=
  s.chains.foldl
    (fun r c => r.configure c.chain (c.health.getD s.engine.health) c.isScaling)
    Registry.empty

/-- One worker for each chain. -/
def workers (s : Settings) : List Worker := s.chains.map (Worker.ofSettings s.engine)

/-- One poller for each Raiden node. -/
def pollers (s : Settings) : Except EngineError (List Poller) :=
  (s.raiden.mapM (Poller.ofSettings s.engine.rules)).mapError fun e =>
    .raiden (.payment e)

/-- The room of the bus. -/
def busCapacity (s : Settings) : Nat :=
  match s.notifications.broadcastCapacity with
  | some n => n.toNat
  | none => Bus.defaultCapacity

end Settings

end Paywatch
