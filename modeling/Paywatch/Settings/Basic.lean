import Paywatch.Backoff
import Paywatch.Event.Target
import Paywatch.Order.Policy
import Paywatch.Provider.Registry

/-!
# Settings

What an operator configures: the engine, the chains with their providers, where notices
go, and the Raiden nodes whose payments are read. `Settings.check` gives the first fault
of settings that cannot work.
-/

namespace Paywatch

structure EngineSettings where
  /-- The name under which this process holds leases. -/
  instanceName : String := "payment-indexer"
  pollIntervalMillis : UInt64 := 2000
  healthCheckIntervalMillis : UInt64 := 30000
  providerTimeoutMillis : UInt64 := 10000
  /-- How far below the head a chain without a newer watermark starts. -/
  backfillDepth : UInt64 := 5000
  leaseTtlMillis : UInt64 := 30000
  /-- How many messages a tracker may be ahead of its worker. -/
  channelCapacity : UInt64 := 256
  backoff : BackoffSettings := {}
  health : HealthPolicy := {}
  rules : MatchingRules := {}
deriving Inhabited

structure ProviderSettings where
  url : String
  /-- Sent as a bearer token. -/
  authToken : Option String
deriving DecidableEq, Repr

structure ChainSettings where
  chain : ChainId
  name : String
  confirmationDepth : UInt64 := 12
  maxReorgDepth : UInt64 := 64
  maxBlocksPerPoll : UInt64 := 100
  /-- A rollup or side chain: its providers are not asked whether they are synced. -/
  isScaling : Bool := false
  /-- Takes the place of the engine's depth. -/
  backfillDepth : Option UInt64 := none
  /-- Takes the place of the engine's policy. -/
  health : Option HealthPolicy := none
  providers : List ProviderSettings
deriving DecidableEq, Repr

structure NotificationSettings where
  logEvents : Bool := false
  webhookUrl : Option String := none
  broadcastCapacity : Option UInt64 := none
deriving DecidableEq, Repr, Inhabited

/-- A Raiden node. Its address and tokens are read when the node is first used. -/
structure RaidenNodeSettings where
  chain : ChainId
  url : String
  address : String
  tokens : List String
  pollIntervalMillis : UInt64 := 5000
deriving DecidableEq, Repr

structure Settings where
  logLevel : String
  logDirectory : String
  logFile : String
  useJson : Bool
  rotation : String
  engine : EngineSettings := {}
  chains : List ChainSettings
  /-- The file that lists the watched targets. -/
  targetsPath : String
  postgresUrl : Option String := none
  notifications : NotificationSettings := {}
  raiden : List RaidenNodeSettings := []

namespace ChainSettings

/-- How far below the head the chain starts. -/
def backfillDepthOf (engine : EngineSettings) (c : ChainSettings) : UInt64 :=
  c.backfillDepth.getD engine.backfillDepth

/-- The first fault of one chain. -/
def fault? (engine : EngineSettings) (c : ChainSettings) : Option String :=
  let backfill := c.backfillDepthOf engine
  if c.providers.isEmpty then
    some ("Chain " ++ c.name ++ " (" ++ c.chain.text ++ ") has no providers")
  else if c.confirmationDepth = 0 then
    some ("Chain " ++ c.name ++ ": confirmation_depth must be at least 1")
  else if c.maxBlocksPerPoll = 0 then
    some ("Chain " ++ c.name ++ ": max_blocks_per_poll must be at least 1")
  else if backfill < c.confirmationDepth then
    some ("Chain " ++ c.name ++ ": backfill depth " ++ Text.decimalWord backfill
      ++ " is below confirmation depth " ++ Text.decimalWord c.confirmationDepth)
  else none

/-- The first fault of a list of chains; `seen` are the chains in front of it. -/
def firstFault? (engine : EngineSettings) (seen : List ChainId) :
    List ChainSettings → Option String
  | [] => none
  | c :: rest =>
    if seen.contains c.chain then some ("Chain " ++ c.chain.text ++ " configured twice")
    else (c.fault? engine).or (firstFault? engine (c.chain :: seen) rest)

end ChainSettings

namespace Settings

/-- The first fault: chains come in their order, the engine last. -/
def fault? (s : Settings) : Option String :=
  if s.chains.isEmpty then some "No chains configured"
  else (ChainSettings.firstFault? s.engine [] s.chains).or
    (if s.engine.health.windowSize = 0 then
      some "engine.health.window_size must be at least 1"
    else none)

def check (s : Settings) : Except ConfigError Unit :=
  match s.fault? with
  | some reason => .error (.invalid reason)
  | none => .ok ()

/-- Libraries that log every query or request. -/
def quietTargets : List String := ["sqlx", "hyper", "hyper_util", "reqwest", "rustls"]

/-- The filter for a log level: quiet targets log warnings only. -/
def logFilter (level : String) : String :=
  level ++ String.join (quietTargets.map fun target => "," ++ target ++ "=warn")

end Settings

end Paywatch
