import Paywatch.Engine.Basic
import Paywatch.Rehearsal.Run

/-!
# What is done in a rehearsal

The moves of whoever directs a rehearsal: to follow a tracker and take its messages, to
wait for a lease, to run a poller for a while, to start the engine, to wait for a chain
to come to a height, and to shut the engine down.
-/

namespace Paywatch

namespace Rehearsal

/-- What comes out of a channel. -/
inductive Taken where
  | message (m : Message)
  /-- The tracker has ended. -/
  | closed
  /-- Nothing came in time. -/
  | idle
deriving DecidableEq, Repr

/-- There is something to take, or nothing will come any more. -/
def canTake (channel : Nat) (r : Rehearsal) : Bool :=
  ((r.channels.get? channel).any fun c => !c.messages.isEmpty) || r.hasEnded channel

/-- Takes up to so many messages, each of which has so many milliseconds to come. -/
def take (r : Rehearsal) (channel millis : Nat) : (count : Nat) → List Taken × Rehearsal
  | 0 => ([], r)
  | count + 1 =>
    let r := r.runUntil (canTake channel) (some (r.stage.clock + millis))
    match r.pop? channel with
    | some (m, r) =>
      let (more, r) := take r channel millis count
      (.message m :: more, r)
    | none => ([if r.hasEnded channel then .closed else .idle], r)

/-- Tells a tracker to stop and waits until it has. -/
def stopTracker (r : Rehearsal) (channel : Nat) : Rehearsal :=
  (r.dismiss channel).runUntil (·.hasEnded channel) none

/-- What comes of waiting for a lease. -/
inductive LeaseWait where
  | held (k : Keeper)
  /-- It was told to stop. -/
  | stopped
  | waiting

/-- Tries to get a lease every `retry` milliseconds until a deadline. -/
def awaitLease (chain : ChainId) (holder : String) (ttl retry deadline : Nat) :
    (fuel : Nat) → Rehearsal → LeaseWait × Rehearsal
  | 0, r => (.waiting, r)
  | fuel + 1, r =>
    if r.stage.stop.on then (.stopped, r)
    else
      match r.perform (Keeper.acquire chain holder ttl) with
      | (some (some k), r) => (.held k, r)
      | (_, r) =>
        if r.stage.clock + retry ≤ deadline then
          awaitLease chain holder ttl retry deadline fuel (r.sleep retry)
        else (.waiting, r.sleep (deadline - r.stage.clock))

/-- Ends a task from outside. -/
def abort (r : Rehearsal) (id : Nat) : Rehearsal :=
  { r with tasks := r.tasks.erase id, timers := r.timers.filter (·.2 ≠ id) }

/-- Starts a poller; gives the number of its task. -/
def startPoller (r : Rehearsal) (p : Poller) : Nat × Rehearsal :=
  r.start .other r.stage.stop.changes (.collect p)

/-- Runs a poller for so many milliseconds. -/
def runPoller (r : Rehearsal) (p : Poller) (millis : Nat) : Rehearsal :=
  let (id, r) := r.startPoller p
  (r.sleep millis).abort id

/-- Forgets what the Raiden node was asked for. -/
def forgetAsked (r : Rehearsal) : Rehearsal :=
  { r with stage := { r.stage with
      history := r.stage.history.map fun h => { h with asked := [] } } }

/-- What the Raiden node was asked for. -/
def asked (r : Rehearsal) : List Nat := ((r.stage.history).map (·.asked)).getD []

/-- The tasks of an engine that runs: its workers in the order of their
chains, and its pollers. -/
structure Crew where
  workers : List (ChainId × Nat) := []
  pollers : List Nat := []
deriving Inhabited

/-- Starts tasks one after the other. -/
def startAll {α β : Type} (launch : Rehearsal → α → β × Rehearsal) (r : Rehearsal)
    (xs : List α) : List β × Rehearsal :=
  xs.foldl (fun (started, r) x =>
    let (b, r) := launch r x
    (started ++ [b], r)) ([], r)

def startWorker (r : Rehearsal) (w : Worker) : (ChainId × Nat) × Rehearsal :=
  let (id, r) := r.start (.worker none) r.stage.stop.changes (.work w .waiting)
  ((w.chain, id), r)

/-- Starts the pollers and the workers of an engine. -/
def startEngine (r : Rehearsal) (s : Settings) (crew : Crew) :
    Except EngineError (Crew × Rehearsal) := do
  let pollers ← s.pollers
  let (pollers, r) := startAll startPoller r pollers
  let (workers, r) := startAll startWorker r s.workers
  return (⟨crew.workers ++ workers, crew.pollers ++ pollers⟩, r)

/-- Shuts an engine down: its workers are told to stop and end one by one,
its pollers are cut off. -/
def shutDown (r : Rehearsal) (crew : Crew) : List (ChainId × WorkerExit) × Rehearsal :=
  let r := (r.setStop true).runUntil
    (fun r => crew.workers.all fun w => r.exits.contains w.2) none
  (crew.workers.filterMap fun w => (r.exits.get? w.2).map fun e => (w.1, e),
    crew.pollers.foldl abort r)

/-- The milliseconds between two looks at a watermark. -/
def lookInterval : Nat := 10

/-- Waits until a chain is processed up to a height; tells whether it was
before the deadline. -/
def awaitHeight (chain : ChainId) (height : Height) (deadline : Nat) :
    (fuel : Nat) → Rehearsal → Bool × Rehearsal
  | 0, r => (false, r)
  | fuel + 1, r =>
    if (r.stage.ledger.watermark chain).any (height ≤ ·.height) then (true, r)
    else if deadline ≤ r.stage.clock then (false, r)
    else awaitHeight chain height deadline fuel (r.sleep lookInterval)

end Rehearsal

end Paywatch
