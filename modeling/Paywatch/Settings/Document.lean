import Paywatch.Order.Document
import Paywatch.Settings.Basic
import Paywatch.Yaml.Reader

/-!
# Settings in documents

Parts that are missing have their usual values. `Settings.ofText` reads a settings file
and checks what it holds.
-/

namespace Paywatch

namespace BackoffSettings

def toData (b : BackoffSettings) : Data :=
  .record [("initial_ms", .ofWord b.initialMillis), ("max_ms", .ofWord b.maxMillis),
    ("multiplier", .float b.multiplier),
    ("randomization_factor", .float b.randomizationFactor)]

def ofData? (d : Data) : Option BackoffSettings := do
  let p ← d.parts? ["initial_ms", "max_ms", "multiplier", "randomization_factor"]
  let usual : BackoffSettings := {}
  return {
    initialMillis := ← p.orElse "initial_ms" usual.initialMillis Data.word?
    maxMillis := ← p.orElse "max_ms" usual.maxMillis Data.word?
    multiplier := ← p.orElse "multiplier" usual.multiplier Data.float?
    randomizationFactor :=
      ← p.orElse "randomization_factor" usual.randomizationFactor Data.float? }

end BackoffSettings

namespace HealthPolicy

def toData (h : HealthPolicy) : Data :=
  .record [("window_size", .ofNat h.windowSize),
    ("failure_threshold", .ofNat h.failureThreshold),
    ("recovery_threshold", .ofNat h.recoveryThreshold),
    ("max_head_lag", .ofWord h.maxHeadLag)]

def ofData? (d : Data) : Option HealthPolicy := do
  let p ← d.parts? ["window_size", "failure_threshold", "recovery_threshold",
    "max_head_lag"]
  let usual : HealthPolicy := {}
  return {
    windowSize := ← p.orElse "window_size" usual.windowSize (Data.natBelow? UInt64.size)
    failureThreshold :=
      ← p.orElse "failure_threshold" usual.failureThreshold (Data.natBelow? UInt32.size)
    recoveryThreshold :=
      ← p.orElse "recovery_threshold" usual.recoveryThreshold (Data.natBelow? UInt32.size)
    maxHeadLag := ← p.orElse "max_head_lag" usual.maxHeadLag Data.word? }

end HealthPolicy

namespace EngineSettings

def toData (e : EngineSettings) : Data :=
  .record [("instance_name", .text e.instanceName),
    ("poll_interval_ms", .ofWord e.pollIntervalMillis),
    ("health_check_interval_ms", .ofWord e.healthCheckIntervalMillis),
    ("provider_timeout_ms", .ofWord e.providerTimeoutMillis),
    ("backfill_depth", .ofWord e.backfillDepth),
    ("lease_ttl_ms", .ofWord e.leaseTtlMillis),
    ("channel_capacity", .ofWord e.channelCapacity), ("backoff", e.backoff.toData),
    ("health", e.health.toData), ("reconciliation", e.rules.toData)]

def ofData? (d : Data) : Option EngineSettings := do
  let p ← d.parts? ["instance_name", "poll_interval_ms", "health_check_interval_ms",
    "provider_timeout_ms", "backfill_depth", "lease_ttl_ms",
    "channel_capacity", "backoff", "health", "reconciliation"]
  let usual : EngineSettings := {}
  return {
    instanceName := ← p.orElse "instance_name" usual.instanceName Data.text?
    pollIntervalMillis :=
      ← p.orElse "poll_interval_ms" usual.pollIntervalMillis Data.word?
    healthCheckIntervalMillis :=
      ← p.orElse "health_check_interval_ms" usual.healthCheckIntervalMillis Data.word?
    providerTimeoutMillis :=
      ← p.orElse "provider_timeout_ms" usual.providerTimeoutMillis Data.word?
    backfillDepth := ← p.orElse "backfill_depth" usual.backfillDepth Data.word?
    leaseTtlMillis := ← p.orElse "lease_ttl_ms" usual.leaseTtlMillis Data.word?
    channelCapacity := ← p.orElse "channel_capacity" usual.channelCapacity Data.word?
    backoff := ← p.orElse "backoff" usual.backoff BackoffSettings.ofData?
    health := ← p.orElse "health" usual.health HealthPolicy.ofData?
    rules := ← p.orElse "reconciliation" usual.rules MatchingRules.ofData? }

end EngineSettings

namespace ProviderSettings

def toData (s : ProviderSettings) : Data :=
  .record [("url", .text s.url), ("auth_token", .ofOption .text s.authToken)]

def ofData? (d : Data) : Option ProviderSettings := do
  let p ← d.parts? ["url", "auth_token"]
  return ⟨← p.need "url" Data.text?,
    ← p.orElse "auth_token" none (Data.option? Data.text?)⟩

end ProviderSettings

namespace ChainSettings

def toData (c : ChainSettings) : Data :=
  .record [("chain_id", c.chain.toData), ("name", .text c.name),
    ("confirmation_depth", .ofWord c.confirmationDepth),
    ("max_reorg_depth", .ofWord c.maxReorgDepth),
    ("max_blocks_per_poll", .ofWord c.maxBlocksPerPoll),
    ("is_scaling_network", .bool c.isScaling),
    ("backfill_depth", .ofOption .ofWord c.backfillDepth),
    ("health", .ofOption HealthPolicy.toData c.health),
    ("providers", .ofList ProviderSettings.toData c.providers)]

def ofData? (d : Data) : Option ChainSettings := do
  let p ← d.parts? ["chain_id", "name", "confirmation_depth", "max_reorg_depth",
    "max_blocks_per_poll", "is_scaling_network", "backfill_depth", "health", "providers"]
  return {
    chain := ← p.need "chain_id" ChainId.ofData?
    name := ← p.need "name" Data.text?
    confirmationDepth := ← p.orElse "confirmation_depth" 12 Data.word?
    maxReorgDepth := ← p.orElse "max_reorg_depth" 64 Data.word?
    maxBlocksPerPoll := ← p.orElse "max_blocks_per_poll" 100 Data.word?
    isScaling := ← p.orElse "is_scaling_network" false Data.bool?
    backfillDepth := ← p.orElse "backfill_depth" none (Data.option? Data.word?)
    health := ← p.orElse "health" none (Data.option? HealthPolicy.ofData?)
    providers := ← p.need "providers" (Data.list? ProviderSettings.ofData?) }

end ChainSettings

namespace NotificationSettings

def toData (n : NotificationSettings) : Data :=
  .record [("log_events", .bool n.logEvents),
    ("webhook_url", .ofOption .text n.webhookUrl),
    ("broadcast_capacity", .ofOption .ofWord n.broadcastCapacity)]

def ofData? (d : Data) : Option NotificationSettings := do
  let p ← d.parts? ["log_events", "webhook_url", "broadcast_capacity"]
  return {
    logEvents := ← p.orElse "log_events" false Data.bool?
    webhookUrl := ← p.orElse "webhook_url" none (Data.option? Data.text?)
    broadcastCapacity := ← p.orElse "broadcast_capacity" none (Data.option? Data.word?) }

end NotificationSettings

namespace RaidenNodeSettings

def toData (r : RaidenNodeSettings) : Data :=
  .record [("chain_id", r.chain.toData), ("url", .text r.url),
    ("address", .text r.address), ("tokens", .ofList .text r.tokens),
    ("poll_interval_ms", .ofWord r.pollIntervalMillis)]

def ofData? (d : Data) : Option RaidenNodeSettings := do
  let p ← d.parts? ["chain_id", "url", "address", "tokens", "poll_interval_ms"]
  return {
    chain := ← p.need "chain_id" ChainId.ofData?
    url := ← p.need "url" Data.text?
    address := ← p.need "address" Data.text?
    tokens := ← p.need "tokens" (Data.list? Data.text?)
    pollIntervalMillis := ← p.orElse "poll_interval_ms" 5000 Data.word? }

end RaidenNodeSettings

namespace Settings

def toData (s : Settings) : Data :=
  .record [("log_level", .text s.logLevel), ("log_dir", .text s.logDirectory),
    ("log_file", .text s.logFile), ("use_json", .bool s.useJson),
    ("rotation", .text s.rotation), ("engine", s.engine.toData),
    ("chains", .ofList ChainSettings.toData s.chains),
    ("targets_path", .text s.targetsPath),
    ("postgres_url", .ofOption .text s.postgresUrl),
    ("notifications", s.notifications.toData),
    ("raiden", .ofList RaidenNodeSettings.toData s.raiden)]

def ofData? (d : Data) : Option Settings := do
  let p ← d.parts? ["log_level", "log_dir", "log_file", "use_json", "rotation", "engine",
    "chains", "targets_path", "postgres_url", "notifications", "raiden"]
  return {
    logLevel := ← p.need "log_level" Data.text?
    logDirectory := ← p.need "log_dir" Data.text?
    logFile := ← p.need "log_file" Data.text?
    useJson := ← p.need "use_json" Data.bool?
    rotation := ← p.need "rotation" Data.text?
    engine := ← p.orElse "engine" {} EngineSettings.ofData?
    chains := ← p.need "chains" (Data.list? ChainSettings.ofData?)
    targetsPath := ← p.need "targets_path" Data.text?
    postgresUrl := ← p.orElse "postgres_url" none (Data.option? Data.text?)
    notifications := ← p.orElse "notifications" {} NotificationSettings.ofData?
    raiden := ← p.orElse "raiden" [] (Data.list? RaidenNodeSettings.ofData?) }

/-- Reads and checks a settings file. -/
def ofText (text : String) : Except ConfigError Settings := do
  match (Yaml.read? text).bind ofData? with
  | some s =>
    s.check
    return s
  | none => throw .malformed

/-- Reads and checks a settings file that may be missing. -/
def ofFile : Option String → Except ConfigError Settings
  | some text => ofText text
  | none => .error .unreadable

end Settings

end Paywatch
