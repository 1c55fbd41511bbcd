import Paywatch.Head.Follow
import Paywatch.Ingest.CatchUp
import Paywatch.Provider.Failover
import Paywatch.Settings.Basic

/-!
# Workers

Each chain has a worker. It waits for the lease of the chain, catches up, and then
ingests what the tracker reports. Failures that may pass are tried again with
growing delays. A worker that lost its lease waits for it again; any other failure
halts the chain for good.
-/

namespace Paywatch

/-- How a worker ended. -/
inductive WorkerExit where
  | stopped
  | halted (reason : String)
deriving DecidableEq, Repr

/-- The worker of a chain. Spans of time are in nanoseconds. -/
structure Worker where
  ingest : Ingest
  holder : String
  leaseTtl : Nat
  catchUpDepth : UInt64
  probeInterval : Nat
  channelCapacity : Nat
  backoff : BackoffSettings
  tracker : TrackerSettings

/-- What a worker that follows its chain holds. -/
structure Vigil where
  keeper : Keeper
  /-- When it looks next whether the lease is to be renewed. -/
  renewalAt : Nat
  /-- When it asks the providers next how they are. -/
  probeAt : Nat

/-- A series of attempts. -/
structure Retry where
  backoff : Backoff
  attempt : UInt32

namespace Retry

def start (s : BackoffSettings) : Retry := ⟨Backoff.start s, 0⟩

/-- The delay before the next attempt. -/
def next (r : Retry) : Nat × Retry :=
  let (delay, backoff) := r.backoff.next
  (delay, ⟨backoff, Follower.countUp r.attempt⟩)

end Retry

/-- Where a worker stands between two turns. -/
inductive WorkerState where
  | waiting
  | catchingUp (keeper : Keeper) (tracker : Tracker) (retry : Retry)
  | live (v : Vigil)
  /-- A message that changes the chain is being applied. -/
  | applying (v : Vigil) (m : Message) (retry : Retry)

/-- How a turn ends. -/
inductive WorkerTurn where
  | goOn (s : WorkerState)
  | exit (e : WorkerExit)

namespace Worker

def ofSettings (engine : EngineSettings) (c : ChainSettings) : Worker where
  ingest := ⟨c.chain, c.confirmationDepth, engine.rules⟩
  holder := engine.instanceName
  leaseTtl := engine.leaseTtlMillis.toNat * nanosPerMilli
  catchUpDepth := c.backfillDepthOf engine
  probeInterval := engine.healthCheckIntervalMillis.toNat * nanosPerMilli
  channelCapacity := max engine.channelCapacity.toNat 1
  backoff := engine.backoff
  tracker := {
    maxReorgDepth := c.maxReorgDepth
    maxBlocksPerPoll := c.maxBlocksPerPoll
    pollInterval := engine.pollIntervalMillis.toNat * nanosPerMilli
    backoff := engine.backoff }

def chain (w : Worker) : ChainId := w.ingest.chain

/-- Ends because it was told to. -/
def stop (w : Worker) : Flow WorkerTurn := do
  Flow.ask (.setPhase w.chain .stopped)
  return .exit .stopped

/-- Ends with the lease in hand because it was told to. -/
def finish (w : Worker) (k : Keeper) : Flow WorkerTurn := do
  k.release
  w.stop

/-- Ends, or waits for the lease again, after a failure. After a panic nothing is said
any more, and the lease is not given back. -/
def fail (w : Worker) (k : Keeper) (e : WorkerError) : Flow WorkerTurn := do
  if e.isLeaseLost then return .goOn .waiting
  if e.isPanic then
    return .exit (.halted ("task panicked with message " ++ Height.panicMessage))
  Flow.ask (.markHalted w.chain e.reason)
  Flow.ask (.publish (.chainHalted w.chain e.reason))
  k.release
  return .exit (.halted e.reason)

/-- Lets the tracker go, and then finishes. -/
def finishLive (w : Worker) (v : Vigil) : Flow WorkerTurn := do
  Flow.ask .stopTracker
  w.finish v.keeper

/-- Lets the tracker go, and then fails. -/
def failLive (w : Worker) (v : Vigil) (e : WorkerError) : Flow WorkerTurn := do
  Flow.ask .stopTracker
  w.fail v.keeper e

/-- Says that the chain cannot be reached. -/
def announceUnavailable (w : Worker) (attempt : UInt32) (delay : Nat) : Flow Unit := do
  Flow.ask (.setPhase w.chain .unavailable)
  Flow.ask (.publish
    (.chainUnavailable w.chain attempt (UInt64.ofNat (delay / nanosPerMilli))))

/-- Rests before the next attempt after a failure that may pass; tells whether to stop. -/
def backOff (w : Worker) (retry : Retry) (delay : Nat) (e : WorkerError) : Flow Bool := do
  if e.isProviderFailure then w.announceUnavailable retry.attempt delay
  Flow.ask (.rest delay)
  Flow.ask .stopRequested

/-- Tries to get the lease. -/
def wait (w : Worker) : Flow WorkerTurn := do
  Flow.ask (.setPhase w.chain .waitingForLease)
  if ← Flow.ask .stopRequested then return ← w.stop
  match ← Keeper.acquire w.chain w.holder w.leaseTtl with
  | some k =>
      return .goOn (.catchingUp k (Tracker.new w.chain w.tracker) (.start w.backoff))
  | none =>
    Flow.ask (.rest (Keeper.period w.leaseTtl))
    return .goOn .waiting

/-- Begins to follow the head with a tracker that has caught up. -/
def goLive (w : Worker) (k : Keeper) (t : Tracker) : Flow WorkerTurn := do
  match t.tip? with
  | some tip => Flow.ask (.blockProcessed w.chain tip.height)
  | none => pure ()
  Flow.ask (.setPhase w.chain .live)
  Flow.ask (.startTracker t w.channelCapacity)
  let now ← Flow.ask .clock
  return .goOn (.live ⟨k, now, now⟩)

/-- Catches up. -/
def catchUp (w : Worker) (k : Keeper) (t : Tracker) (retry : Retry) : Flow WorkerTurn :=
  do
  if ← Flow.ask .stopRequested then return ← w.finish k
  Flow.ask (.setPhase w.chain .backfilling)
  let c ← CatchUp.run w.ingest w.catchUpDepth t k
  match c.outcome with
  | .ok (some _) => w.goLive c.keeper c.tracker
  | .ok none => w.finish c.keeper
  | .error e =>
    if e.isTransient then
      let (delay, retry) := retry.next
      if ← w.backOff retry delay e then w.finish c.keeper
      else return .goOn (.catchingUp c.keeper c.tracker retry)
    else w.fail c.keeper e

/-- Takes a message of the tracker. -/
def receive (w : Worker) (v : Vigil) (m : Message) : Flow WorkerTurn := do
  match m with
  | .unavailable attempt delay =>
    w.announceUnavailable attempt delay
    return .goOn (.live v)
  | .halted reason => w.failLive v (.halted w.chain reason)
  | _ => return .goOn (.applying v m (.start w.backoff))

/-- The time between two looks at the lease is a millisecond at least. -/
def renewalPeriod (w : Worker) : Nat := max (Keeper.period w.leaseTtl) nanosPerMilli

/-- Waits for what comes next. -/
def watch (w : Worker) (v : Vigil) : Flow WorkerTurn := do
  if ← Flow.ask .stopRequested then return ← w.finishLive v
  match ← Flow.ask (.await v.renewalAt v.probeAt) with
  | .signal => return .goOn (.live v)
  | .message m => w.receive v m
  | .closed => w.failLive v (.halted w.chain "chain head tracker stopped")
  | .renewal =>
    match ← v.keeper.renewIfDue with
    | .error e => w.failLive v (.ledger e)
    | .ok k =>
        return .goOn (.live
          { v with keeper := k, renewalAt := v.renewalAt + w.renewalPeriod })
  | .probe =>
    discard <| Failover.probeAll w.chain
    return .goOn (.live { v with probeAt := v.probeAt + w.probeInterval })

/-- The height at which the chain stands after a message. -/
def heightAfter? : Message → Option Height
  | .accepted b _ => some b.height
  | .reverted range => some range.forkPoint.height
  | .unavailable .. => none
  | .halted _ => none

/-- Applies a message. -/
def applyMessage (w : Worker) (v : Vigil) (m : Message) (retry : Retry) :
    Flow WorkerTurn := do
  match ← v.keeper.renewIfDue with
  | .error e => w.failLive v (.ledger e)
  | .ok k =>
    let v := { v with keeper := k }
    match ← w.ingest.apply k.lease m with
    | .ok () =>
      match heightAfter? m with
      | some height => Flow.ask (.blockProcessed w.chain height)
      | none => pure ()
      return .goOn (.live v)
    | .error e =>
      if e.isTransient then
        let (delay, retry) := retry.next
        if ← w.backOff retry delay e then w.finishLive v
        else return .goOn (.applying v m retry)
      else w.failLive v e

/-- One turn. -/
def turn (w : Worker) : WorkerState → Flow WorkerTurn
  | .waiting => w.wait
  | .catchingUp k t retry => w.catchUp k t retry
  | .live v => w.watch v
  | .applying v m retry => w.applyMessage v m retry

end Worker

end Paywatch
