import Paywatch.Engine.Document
import Paywatch.Script.Nodes
import Paywatch.Script.Stored
import Paywatch.Settings.Document

/-!
# Scripts for a whole engine

The engine is started from its settings and a targets file, asked for what callers ask
for, and shut down; a restart makes a new engine on what is stored.
-/

namespace Paywatch.Script

structure EngineRoom where
  settings : Settings
  crew : Rehearsal.Crew
  /-- The text of the targets file, if there is one. -/
  file : Option String
  /-- The engine is built with the providers of its settings. -/
  build : Bool

abbrev EngineAct := Act EngineRoom

/-- The stage of a new engine: its catalog is read and, if it was built, the configured
providers are registered. -/
def newStage (s : Settings) (build : Bool) (file : Option String) (ledger : Ledger)
    (moment clock : Nat) : Answer Rehearsal.Stage := do
  let write (e : ConfigError) : Data :=
    if build then engineError (.config e) else configError e
  let catalog ← orFail write (Catalog.ofFile file)
  let registry := if build then
      s.chains.foldl (fun r c =>
        c.providers.foldl (fun r p => (r.register c.chain p.url).2) r) s.registry
    else s.registry
  return {
    clock, moment, ledger, registry, catalog
    callTimeout := s.engine.providerTimeoutMillis.toNat
    bus := heardBus s.busCapacity }

/-- Puts the nodes of an old engine behind a new one. -/
def moveNodes (clients : List ProviderId) (old new : Rehearsal.Stage) :
    Rehearsal.Stage × List ProviderId :=
  clients.foldl (fun (s, ids) id =>
    match old.nodes.get? id with
    | some node =>
      let (id, s) := Rehearsal.Stage.addNode s node.chain node.endpoint node
      (s, ids ++ [id])
    | none => (s, ids)) (new, [])

def exitData (x : ChainId × WorkerExit) : Data :=
  let (chain, exit) := x
  let how : Data := match exit with
    | .stopped => .text "shutdown"
    | .halted reason => .record [("halted", .text reason)]
  .list [chain.toData, how]

def shutDown : EngineAct (List (ChainId × WorkerExit)) := do
  let crew := (← getOwn).crew
  let exits ← direct (·.shutDown crew)
  changeOwn fun w => { w with crew := {} }
  return exits

def engineStep? (d : Data) : Option (EngineAct Data) :=
  match text d "do" with
  | "add_client" => some do
    let endpoint := text d "endpoint"
    let (id, s) :=
      (← stage).addNode (chain d) endpoint (ScriptedNode.new (chain d) endpoint)
    setStage s
    modify fun w => { w with clients := w.clients ++ [id] }
    return .text id.text
  | "restart" => some do
    let h ← getOwn
    discard shutDown
    let old ← stage
    let new ← lift (newStage h.settings h.build h.file old.ledger old.moment old.clock)
    let w ← get
    let (s, clients) := moveNodes w.clients old new
    set { w with r := { w.r with stage := s }, clients }
    return .null
  | "create_order" => some do
    let amount ← lift (typedField d "amount" Amount.ofData?)
    let token ← lift (typedField d "token" Token.ofData?)
    madeOrder (← performOr engineError
      ((← getOwn).settings.createOrder amount token (text d "reference")))
  | "open_route" => some do
    let request ← request d
    madeRoute (← performOr engineError ((← getOwn).settings.openRoute request))
  | "order" => some do
    return .ofOption orderData (← perform (Flow.ledger (.order (← orderIdField d))))
  | "routes" => some do
    return .ofList routeData (← perform (Flow.ledger (.routesOf (← orderIdField d))))
  | "expire_order" => some do
    return .bool (← performOr engineError (Order.expire (← orderIdField d)))
  | "deposit_tracker" => some do
    let address ← lift (typedField d "address" Address.ofData?)
    let token ← optionalToken d
    let tracker ← performOr engineError
      ((← getOwn).settings.registerTracker (text d "ref") (chain d) address token)
    changeNames (·.addTracker tracker.id)
    return without ["created_at"] tracker.toData
  | "internal" => some do
    let token ← lift (typedField d "token" Token.ofData?)
    let amount ← lift (typedField d "amount" Amount.ofData?)
    return masked
      (← performOr engineError ((← getOwn).settings.recordInternal
        (text d "sender") (text d "receiver") token amount (text? d "memo")))
  | "ingest" => some do
    let p ← payment (field d "payment")
    return .ofOption masked
      (← performOr engineError ((← getOwn).settings.ingestPayment p))
  | "write_targets" => some do
    changeOwn fun w => { w with file := text? d "yaml" }
    return .null
  | "reload" => some do
    let catalog ← lift (orFail (fun e => engineError (.config e))
      (Catalog.ofFile (← getOwn).file))
    changeStage fun s => { s with catalog }
    return .ofNat catalog.size
  | "status" => some do
    let s := (← getOwn).settings
    let g ← stage
    return s.statusData (s.status g.registry g.ledger g.board)
  | "phase" => some do
    let board := (← stage).board
    return .ofList (fun c : ChainSettings =>
      let p := board.progress c.chain
      .list [c.chain.toData, .text p.phase.text, .bool (board.isHalted c.chain),
        .ofOption .text p.haltedReason]) (← getOwn).settings.chains
  | "start" => some do
    let w ← get
    let (crew, r) ← lift (orFail engineError (w.r.startEngine w.own.settings w.own.crew))
    set { w with r, own := { w.own with crew } }
    return .ofNat w.own.settings.chains.length
  | "wait" => some do
    return .bool (← direct fun r => Rehearsal.awaitHeight (chain d) (word d "height" 0)
      (r.stage.clock + nat d "max_ms" 5000) 1000000 r)
  | "sleep" => some do
    change (·.sleep (nat d "ms" 0))
    return .null
  | "shutdown" => some do return .ofList exitData (← shutDown)
  | "dump" => some (dump (chain d))
  | "transfers" => some storedTransfers
  | _ => none

/-- How often these notices come is a matter of timing. -/
def isTimed : Notice → Bool
  | .chainUnavailable .. => true
  | .providerOnline .. => true
  | .providerOffline .. => true
  | _ => false

/-- The answers of a script for a whole engine. -/
def engineRoom (d : Data) : Answer Data := do
  let settings ← orFail configError (Settings.ofText (text d "config"))
  let file := text? d "catalog"
  let build := flag d "build"
  let stage ← newStage settings build file .empty 0 0
  let scene : Scene EngineRoom :=
    { r := { stage }, clients := [], names := {}, orders := []
      own := { settings, crew := {}, file, build } }
  unlessPanic
    (runSteps (!isTimed ·) (firstOf [nodeStep?, engineStep?]) scene (list d "steps"))

end Paywatch.Script
