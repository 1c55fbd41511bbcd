import Paywatch.Script.Scene

/-!
# Orders and what is stored

The parts of steps that make orders and routes, read payments, and look at
what the ledger holds.
-/

namespace Paywatch.Script

variable {α : Type}

/-- The names of all that is stored so far. -/
def namesNow : Act α Names := do
  let w ← get
  return w.names.addTransfers w.r.stage.ledger

def storedTransfers : Act α Data := do
  return (← namesNow).sorted ((← stage).ledger.allTransfers.map masked)

/-- What the ledger holds of a chain, and all transfers, deposits and orders. -/
def dump (chain : ChainId) : Act α Data := do
  let l := (← stage).ledger
  let names ← namesNow
  let transfers := l.allTransfers.map fun t => Data.list [t.id.toData, t.status.toData,
    t.amount.toData, .ofOption .ofWord t.confirmedAtHeight]
  let deposits := l.deposits.values.map fun x => Data.list [x.trackerId.toData,
    .text x.externalRef, x.transferId.toData, x.chain.toData, .ofOption .ofWord x.height]
  let orders := (← get).orders.map fun id => Data.record [
    ("order", .ofOption
      (fun o : Order => .list [o.id.toData, o.status.toData, o.totalPaid.toData])
      (l.orders.get? id)),
    ("routes", .ofList routeRow (l.routesOf id))]
  return .record [("watermark", .ofOption BlockRef.toData (l.watermark chain)),
    ("raw_events", eventRows (l.eventsOf chain)),
    ("orphans", eventRows (l.orphansOf chain)), ("transfers", names.sorted transfers),
    ("deposits", names.sorted deposits),
    ("orders", .list orders)]

/-- A payment; its identifier may be that of a route. -/
def payment (d : Data) : Act α Payment := do
  let w ← get
  let given : Option UInt64 := (text? d "identifier_of").bind w.names.paymentOf?
  lift do
    return {
      chain := chain d
      node := ← typedField d "node" Address.ofData?
      token := ← typedField d "token" Token.ofData?
      identifier := given.getD (word d "identifier" 0)
      amount := ← typedField d "amount" Amount.ofData?
      partner := ← typedField d "partner" Address.ofData?
      direction := ← typedField d "direction" Direction.ofData?
      logTime := ← timeField d "log_time" }

def orderData (o : Order) : Data := without ["created_at"] o.toData
def routeData (r : Route) : Data := without ["created_at"] r.toData

/-- Keeps the name of a new order. -/
def madeOrder (o : Order) : Act α Data := do
  modify fun w => { w with orders := w.orders ++ [o.id], names := w.names.addOrder o.id }
  return orderData o

def madeRoute (r : Route) : Act α Data := do
  changeNames (·.addRoute r)
  return routeData r

/-- The request of a step, whose order may be given by its name. -/
def request (d : Data) : Act α RouteRequest := do
  let d := (← get).names.resolve "order_id" (field d "request")
  lift (typed RouteRequest.ofData? d)

def orderIdField (d : Data) : Act α OrderId := do
  lift (typedField ((← get).names.resolve "id" d) "id" Id.ofData?)

def optionalToken (d : Data) : Act α (Option Token) :=
  match field d "token" with
  | .null => return none
  | t => return some (← lift (typed Token.ofData? t))

end Paywatch.Script
