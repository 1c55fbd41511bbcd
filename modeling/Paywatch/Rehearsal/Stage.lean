import Paywatch.Flow.Basic
import Paywatch.Node.Scripted
import Paywatch.Notice.Bus

/-!
# The stage of a rehearsal

A rehearsal runs the program against nodes made to order, under a clock that is set
forward by hand. The stage holds everything that its tasks share: the clock, the ledger,
the providers with their nodes, the catalog, the bus and the board. What the ledger is
told can be disturbed by another writer who comes first.
-/

namespace Paywatch

namespace Rehearsal

/-- A request that can be made and taken back. Whoever listens sees every change. -/
structure Signal where
  on : Bool := false
  changes : Nat := 0
deriving DecidableEq, Repr, Inhabited

namespace Signal

def set (s : Signal) (on : Bool) : Signal := ⟨on, s.changes + 1⟩

end Signal

/-- What happens just before a commit. -/
inductive Disturbance where
  | nothing
  /-- The commit fails. -/
  | refusal (e : LedgerError)
  /-- Another writer settles a route. -/
  | claim (c : Claim)
  /-- Another writer reverts the pending transfer with this dedupe key. -/
  | revert (key : String)
deriving DecidableEq

namespace Disturbance

/-- The ledger after the disturbance; its error is that of the commit. -/
def apply (l : Ledger) : Disturbance → Except LedgerError Ledger
  | nothing => .ok l
  | refusal e => .error e
  | claim c => l.commitPlan [] ⟨[c], []⟩
  | revert key =>
    match (l.transferByKey key).map Transfer.revert with
    | some (.ok t) => l.commitPlan [.update t .pending] Plan.empty
    | _ => .ok l

end Disturbance

/-- The payment history that a Raiden node gives, and what it was asked for. -/
structure PaymentHistory where
  events : List PaymentEvent := []
  /-- The status it answers instead, if it is out of order. -/
  failure : Option Nat := none
  /-- The places from which payments were asked for. -/
  asked : List Nat := []
deriving Inhabited

structure Stage where
  /-- Milliseconds since the start. -/
  clock : Nat := 0
  /-- How many times a new record was stamped or the time of day was looked up. -/
  moment : Nat := 0
  ledger : Ledger := .empty
  /-- What happens to the next commits. -/
  disturbances : List Disturbance := []
  registry : Registry := .empty
  nodes : Table ProviderId ScriptedNode := .empty
  /-- The milliseconds that a provider is given for an answer. -/
  callTimeout : Nat
  catalog : Catalog := .empty
  bus : Bus
  board : StatusBoard := ⟨.empty⟩
  /-- The request to stop. -/
  stop : Signal := {}
  /-- The Raiden node, if there is one. -/
  history : Option PaymentHistory := none
deriving Inhabited

namespace Stage

/-- The second of universal time at which a rehearsal starts. -/
def startSecond : Nat := 1767225600

/-- A time of day that comes after all earlier ones. -/
def tick (s : Stage) : Instant × Stage :=
  let time :=
    Instant.ofEpoch? (startSecond + s.moment / 1000 : Nat) (s.moment % 1000 * 1000000)
  (time.getD default, { s with moment := s.moment + 1 })

/-- A new identifier with its time. -/
def stamp (s : Stage) : Stamp × Stage :=
  let ulid := Ulid.make (startSecond * 1000 + s.moment) s.moment
  let (time, s) := s.tick
  (⟨ulid, time⟩, s)

/-- A new identifier of a payment. -/
def identifier (s : Stage) : UInt64 × Stage :=
  (UInt64.ofNat (1 <<< 48 + s.moment), { s with moment := s.moment + 1 })

def publish (s : Stage) (ns : List Notice) : Stage :=
  { s with bus := s.bus.publishAll ns }

/-- Changes the registry and announces what came of it. -/
def register (s : Stage) (change : Registry × List Notice) : Stage :=
  { s with registry := change.1 }.publish change.2

/-- A commit after the next disturbance. -/
def commit (s : Stage) (change : Ledger → Except LedgerError Ledger) :
    Except LedgerError Unit × Stage :=
  let next := s.disturbances.head?.getD .nothing
  let s := { s with disturbances := s.disturbances.tail }
  match next.apply s.ledger with
  | .error e => (.error e, s)
  | .ok l =>
    let (reply, l) := l.attempt (change l)
    (reply, { s with ledger := l })

/-- Answers a call to the ledger. -/
def callLedger (s : Stage) : (c : Ledger.Call) → c.Reply × Stage
  | .commit batch => s.commit (·.commit batch)
  | .commitPlan writes plan => s.commit (·.commitPlan writes plan)
  | c =>
    let (reply, l) := s.ledger.perform c
    (reply, { s with ledger := l })

/-- The providers of a chain in the order of calls. -/
def candidates (s : Stage) (chain : ChainId) : List ProviderId × Stage :=
  let (found, registry) := s.registry.candidates chain
  (found.map (·.id), { s with registry })

/-- Asks the Raiden node for its payments. -/
def payments (s : Stage) (url : String) (offset : Nat) :
    Except FeedError (List PaymentEvent) × Stage :=
  match s.history with
  | none => (.error (.http "no node"), s)
  | some h =>
    let s := { s with history := some { h with asked := h.asked ++ [offset] } }
    match h.failure with
    | some code => (.error (.status url code), s)
    | none => (.ok (h.events.drop offset), s)

/-- Adds a node made to order as a provider. -/
def addNode (s : Stage) (chain : ChainId) (endpoint : String) (node : ScriptedNode) :
    ProviderId × Stage :=
  let (id, registry) := s.registry.register chain endpoint
  (id, { s with registry, nodes := s.nodes.insert id node })

/-- Changes the nodes with these identifiers. -/
def changeNodes (s : Stage) (ids : List ProviderId) (f : ScriptedNode → ScriptedNode) :
    Stage :=
  { s with nodes := ids.foldl (fun nodes id => nodes.modify id f) s.nodes }

end Stage

end Rehearsal

end Paywatch
