import Paywatch.Provider.Document
import Paywatch.Script.Workshop.Basic
import Paywatch.Settings.Document

/-!
# Steps on providers and the catalog

Outcomes are reported by hand, and what the registry makes of them is looked at.
-/

namespace Paywatch.Script

def providerField (d : Data) (name : String) : ProviderId := ⟨UInt32.ofNat (nat d name 0)⟩

def healthData (r : Registry) (id : ProviderId) : Data :=
  .ofOption (fun p : Provider => .text p.health.text) (r.providers.get? id)

def changeRegistry (f : Registry → Registry × List Notice) : WorkshopAct Unit :=
  changeStage fun s => s.register (f s.registry)

def providerIds (ps : List Provider) : Data :=
  .ofList (fun p => .ofNat p.id.number.toNat) ps

def policyField (d : Data) : WorkshopAct HealthPolicy :=
  match field d "policy" with
  | .null => return {}
  | p => lift (typed HealthPolicy.ofData? p)

/-- Steps on the registry and the catalog. -/
def providerStep? (d : Data) : Option (WorkshopAct Data) :=
  match text d "do" with
  | "register" => some do
    let s ← stage
    let endpoint := text d "endpoint"
    let (id, s) := s.addNode (chain d) endpoint (ScriptedNode.new (chain d) endpoint)
    setStage s
    return .text id.text
  | "configure" => some do
    let policy ← policyField d
    changeRegistry fun r => (r.configure (chain d) policy (flag d "scaling"), [])
    return .bool ((← stage).registry.isScaling (chain d))
  | "outcome" => some do
    let outcome := if flag d "ok" then CallOutcome.success (word? d "head") else .failure
    for _ in List.range (nat d "times" 1) do
      changeRegistry (·.report (providerField d "provider") outcome)
    return healthData (← stage).registry (providerField d "provider")
  | "sync" => some do
    changeRegistry (·.reportSync (providerField d "provider") (flag d "synced"))
    return healthData (← stage).registry (providerField d "provider")
  | "gas" => some do
    let (fee, registry) :=
      (← stage).registry.reportFees (providerField d "provider") (feeSample d)
    changeRegistry fun _ => (registry, [])
    return .ofOption Amount.toData fee
  | "healthy" => some do
    let (found, registry) := (← stage).registry.listHealthy (chain d)
    changeRegistry fun _ => (registry, [])
    return providerIds found
  | "candidates" => some do
    let (found, registry) := (← stage).registry.candidates (chain d)
    changeRegistry fun _ => (registry, [])
    return providerIds found
  | "handles" => some do
    return providerIds ((← stage).registry.members (chain d))
  | "snapshot" => some do
    return .ofList Provider.toData ((← stage).registry.members (chain d))
  | "best_head" => some do
    return .ofOption .ofWord ((← stage).registry.bestHead? (chain d))
  | "head" => some do
    return .ofWord
      (← performOr providerError (Failover.ask (← getOwn).ingest.chain .head))
  | "probe" =>
      some do return .ofNat (← perform (Failover.probeAll (← getOwn).ingest.chain))
  | "extract" => some do
    let b ← stepBlock d
    match ← perform (Ingest.extract b) with
    | .error e => refuse (errorData "Provider" ("Provider error: " ++ e.message) [])
    | .ok x =>
      return .record [("events", .ofList ChainEvent.toData x.events),
        ("decode_failures", .ofNat x.decodeFailures)]
  | "catalog" => some do lift (catalogData (← stage).catalog d)
  | "replace_catalog" => some do
    let catalog ← lift (orFail configError (Catalog.ofFile (text? d "yaml")))
    changeStage fun s => { s with catalog }
    return .ofNat catalog.size
  | _ => none

end Paywatch.Script
