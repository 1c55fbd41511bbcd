import Paywatch.Notice.Basic
import Paywatch.Provider.Gas

/-!
# Providers and their health

The providers of each chain, what they last said, and whether they are healthy. A
provider degrades after failures in a row, when it lags behind the best head, or
when it says that it is not synced; it recovers after successes in a row when it
neither lags nor is known unsynced.  Calls go round the healthy providers;
degraded ones are tried last.
-/

namespace Paywatch

structure ProviderId where
  number : UInt32
deriving DecidableEq, Repr, Inhabited

namespace ProviderId

def text (id : ProviderId) : String := "p" ++ Text.decimal id.number.toNat

end ProviderId

inductive Health where
  | healthy | degraded
deriving DecidableEq, Repr

namespace Health

def text : Health → String
  | healthy => "healthy"
  | degraded => "degraded"

end Health

/-- When a provider counts as degraded and when it has recovered. -/
structure HealthPolicy where
  /-- How many outcomes the success ratio looks back on. -/
  windowSize : Nat := 20
  failureThreshold : Nat := 3
  recoveryThreshold : Nat := 2
  maxHeadLag : UInt64 := 10
deriving DecidableEq, Repr, Inhabited

/-- How a call to a provider ended. -/
inductive CallOutcome where
  | success (head : Option Height)
  | failure
deriving DecidableEq, Repr

/-- What is known about one provider. -/
structure Provider where
  id : ProviderId
  chain : ChainId
  endpoint : String
  health : Health := .healthy
  /-- The newest outcomes, oldest first. -/
  outcomes : List Bool := []
  failures : Nat := 0
  successes : Nat := 0
  lastOk : Option Bool := none
  /-- The moments of the last success and the last failure, in reports since the start. -/
  lastSuccess : Option Nat := none
  lastFailure : Option Nat := none
  lastHead : Option Height := none
  synced : Option Bool := none
  gasFee : Option Amount := none

namespace Provider

/-- Counters stop at the largest 32-bit number. -/
def countUp (n : Nat) : Nat := min (n + 1) (UInt32.size - 1)

/-- Records the outcome of a call. -/
def record (p : Provider) (ok : Bool) (windowSize moment : Nat) : Provider :=
  let kept := if windowSize ≤ p.outcomes.length then p.outcomes.tail else p.outcomes
  let p := { p with outcomes := kept ++ [ok], lastOk := some ok }
  if ok then
    { p with failures := 0, successes := countUp p.successes, lastSuccess := some moment }
  else
    { p with successes := 0, failures := countUp p.failures, lastFailure := some moment }

/-- The share of successes among the newest outcomes, as successes and outcomes. -/
def successRatio (p : Provider) : Nat × Nat :=
  if p.outcomes.isEmpty then (1, 1) else (p.outcomes.count true, p.outcomes.length)

def lags (p : Provider) (best : Height) (maxLag : UInt64) : Bool :=
  p.lastHead.any fun head => maxLag.toNat < best.toNat - head.toNat

/-- The health that follows from what is known. -/
def evaluate (p : Provider) (best : Height) (policy : HealthPolicy) : Health :=
  let lagging := p.lags best policy.maxHeadLag
  let unsynced := p.synced == some false
  match p.health with
  | .healthy =>
    if policy.failureThreshold ≤ p.failures || lagging || unsynced then .degraded
      else .healthy
  | .degraded =>
    if policy.recoveryThreshold ≤ p.successes && !lagging && !unsynced then .healthy
    else .degraded

end Provider

/-- What belongs to a chain rather than to one of its providers. -/
structure ProviderGroup where
  members : List ProviderId := []
  policy : HealthPolicy := {}
  /-- Rollups and side chains are not asked whether they are synced. -/
  scaling : Bool := false
  /-- How often the healthy providers were listed. -/
  turns : Nat := 0
  gas : GasHistory := default
deriving Inhabited

structure Registry where
  providers : Table ProviderId Provider
  groups : Table ChainId ProviderGroup
  nextId : UInt32
  /-- The number of outcomes reported so far. -/
  reports : Nat
deriving Inhabited

namespace Registry

def empty : Registry := ⟨.empty, .empty, 1, 0⟩

/-- Sets the policy of a chain. -/
def configure (r : Registry) (chain : ChainId) (policy : HealthPolicy) (scaling : Bool) :
    Registry :=
  let group := (r.groups.get? chain).getD {}
  { r with groups := r.groups.insert chain { group with policy, scaling } }

/-- Adds a provider behind the others of its chain. -/
def register (r : Registry) (chain : ChainId) (endpoint : String) :
    ProviderId × Registry :=
  let id : ProviderId := ⟨r.nextId⟩
  let group := (r.groups.get? chain).getD {}
  (id, { r with
    nextId := r.nextId + 1
    providers := r.providers.insert id { id, chain, endpoint }
    groups := r.groups.insert chain { group with members := group.members ++ [id] } })

def group (r : Registry) (chain : ChainId) : ProviderGroup :=
  (r.groups.get? chain).getD {}

def isScaling (r : Registry) (chain : ChainId) : Bool := (r.group chain).scaling

/-- The providers of a chain in the order of registration. -/
def members (r : Registry) (chain : ChainId) : List Provider :=
  (r.group chain).members.filterMap r.providers.get?

/-- Moves the first `n` elements to the end. -/
def rotate {α : Type} (xs : List α) (n : Nat) : List α := xs.drop n ++ xs.take n

/-- The moment is earlier; no moment is earlier than any. -/
def earlier : Option Nat → Option Nat → Bool
  | none, some _ => true
  | some a, some b => a < b
  | _, none => false

/-- The healthy providers in the order of calls, and the registry afterwards. Those
whose last call did not fail come first and take turns; then those whose last call
failed, the one with the latest success first. -/
def listHealthy (r : Registry) (chain : ChainId) : List Provider × Registry :=
  match r.groups.get? chain with
  | none => ([], r)
  | some group =>
    let healthy := (r.members chain).filter (·.health == .healthy)
    let fresh := healthy.filter (·.lastOk != some false)
    let stale := healthy.filter (·.lastOk == some false)
    (rotate fresh (group.turns % max fresh.length 1)
      ++ sortBy (fun p q => earlier q.lastSuccess p.lastSuccess) stale,
      { r with groups := r.groups.insert chain { group with turns := group.turns + 1 } })

/-- All providers in the order in which a question is put to them: the healthy ones,
then the degraded ones, the one that failed longest ago first. -/
def candidates (r : Registry) (chain : ChainId) : List Provider × Registry :=
  let (healthy, after) := r.listHealthy chain
  let degraded := (r.members chain).filter (·.health == .degraded)
  (healthy ++ sortBy (fun p q => earlier p.lastFailure q.lastFailure) degraded, after)

/-- The highest head that a provider of the chain reported. -/
def bestHead? (r : Registry) (chain : ChainId) : Option Height :=
  (r.members chain).foldl (fun best p =>
    match best, p.lastHead with
    | some b, some h => some (if b < h then h else b)
    | none, h => h
    | b, none => b) none

/-- Gives a provider the health that follows from what is known; tells
whether it changed. -/
def reevaluateOne (best : Height) (policy : HealthPolicy) (p : Provider) :
    Provider × Option Notice :=
  let next := p.evaluate best policy
  if next = p.health then (p, none)
  else
    match next with
    | .healthy =>
      ({ p with health := next, successes := 0 },
        some (.providerOnline p.chain p.endpoint))
    | .degraded => ({ p with health := next }, some (.providerOffline p.chain p.endpoint))

/-- Derives the health of every provider of a chain anew. A new head of one
provider can degrade another. -/
def reevaluate (r : Registry) (chain : ChainId) : Registry × List Notice :=
  let policy := (r.group chain).policy
  let best := (r.bestHead? chain).getD 0
  let next := (r.members chain).map (reevaluateOne best policy)
  ({ r with providers := next.foldl (fun t (p, _) => t.insert p.id p) r.providers },
    next.filterMap (·.2))

/-- Records how a call ended. -/
def report (r : Registry) (id : ProviderId) (outcome : CallOutcome) :
    Registry × List Notice :=
  match r.providers.get? id with
  | none => (r, [])
  | some p =>
    let size := (r.group p.chain).policy.windowSize
    let p := match outcome with
      | .success head =>
        let p := p.record true size r.reports
        { p with lastHead := head.or p.lastHead }
      | .failure => p.record false size r.reports
    { r with
      providers := r.providers.insert id p
      reports := r.reports + 1 }.reevaluate p.chain

/-- Records whether a provider is synced; scaling networks are not asked. -/
def reportSync (r : Registry) (id : ProviderId) (synced : Bool) :
    Registry × List Notice :=
  match r.providers.get? id with
  | none => (r, [])
  | some p =>
    if r.isScaling p.chain then (r, [])
    else
      { r with
        providers :=
          r.providers.insert id { p with synced := some synced } }.reevaluate p.chain

/-- Records the fees that a provider reported; gives the estimate. -/
def reportFees (r : Registry) (id : ProviderId) (sample : FeeSample) :
    Option Amount × Registry :=
  match r.providers.get? id with
  | none => (none, r)
  | some p =>
    let group := r.group p.chain
    let (estimate, gas) := group.gas.estimate sample
    (estimate, { r with
      groups := r.groups.insert p.chain { group with gas }
      providers := r.providers.insert id { p with gasFee := estimate.or p.gasFee } })

end Registry

end Paywatch
