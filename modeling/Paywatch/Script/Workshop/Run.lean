import Paywatch.Script.Workshop.Ingesting
import Paywatch.Script.Workshop.Leases
import Paywatch.Script.Workshop.Providers
import Paywatch.Script.Workshop.Settling
import Paywatch.Script.Workshop.Tracking

/-!
# Running a workshop script

A script says first what nodes there are and how the parts are set, and then its steps.
-/

namespace Paywatch.Script

def workshopStep : Data → WorkshopAct Data :=
  firstOf [nodeStep?, providerStep?, trackerStep?, leaseStep?, ingestStep?, settleStep?]

/-- The answers of a workshop script. -/
def workshop (d : Data) : Answer Data := do
  let here := chain d
  let policy ← match field d "policy" with
    | .null => pure none
    | p => pure (some (← typed HealthPolicy.ofData? p))
  let backoff ← match field d "backoff" with
    | .null => pure (⟨10, 40, 2.0, 0.0⟩ : BackoffSettings)
    | b => typed BackoffSettings.ofData? b
  let catalog ← match text? d "catalog" with
    | some yaml => orFail configError (Catalog.ofText yaml)
    | none => pure .empty
  let rules ← rules d "config"
  let settings : TrackerSettings :=
    { maxReorgDepth := word d "max_reorg_depth" 10
      maxBlocksPerPoll := word d "max_blocks_per_poll" 100
      pollInterval := nat d "poll_interval_ms" 10 * nanosPerMilli
      backoff }
  let stage : Rehearsal.Stage :=
    { callTimeout := nat d "timeout_ms" 1000, catalog,
      bus := heardBus Bus.defaultCapacity, history := some {} }
  let stage := if policy.isSome || flag d "scaling" then
      { stage with
        registry := stage.registry.configure here (policy.getD {}) (flag d "scaling") }
    else stage
  let (stage, clients) := (list d "clients").foldl (fun (stage, ids) c =>
    let endpoint := (asText? c).getD ""
    let (id, stage) :=
      Rehearsal.Stage.addNode stage here endpoint (ScriptedNode.new here endpoint)
    (stage, ids ++ [id])) (stage, [])
  let scene : Scene Workshop :=
    { r := { stage }, clients, names := {}, orders := []
      own := {
        ingest := ⟨here, word d "depth" 3, rules⟩
        settings
        tracker := .new here settings
        channel := none, keeper := none, poller := none, leases := .empty } }
  unlessPanic (runSteps (fun _ => true) workshopStep scene (list d "steps"))

end Paywatch.Script
