import Paywatch.Script.Workshop.Basic

/-!
# Steps on orders and settlements

Orders and routes are made, payments come in by hand or from a Raiden node, and another
writer disturbs the commits.
-/

namespace Paywatch.Script

/-- The claim of another writer; route and order may be given by their names. -/
def foreignClaim (chain : ChainId) (names : Names) (d : Data) : Answer Claim := do
  let d := names.resolve "order" (names.resolve "route" d)
  return ⟨← typedField d "route" Id.ofData?, ← typedField d "order" Id.ofData?,
    ← typedField d "transfer_id" Id.ofData?, chain,
    ← typedField d "amount" Amount.ofData?, none⟩

/-- How a commit fails, if it does. -/
def refusal? (chain : ChainId) (d : Data) : Answer (Option LedgerError) := do
  match text d "fail" with
  | "claim" => return some (.claimConflict (← typedField d "route_id" Id.ofData?))
  | "transfer" =>
      return some (.transferConflict (← typedField d "transfer_id" Id.ofData?))
  | "corrupt" => return some (.corrupt (text d "message"))
  | "lease" => return some (.leaseLost chain)
  | _ => return none

/-- What happens to a commit, as a step says. -/
def disturbance (d : Data) : WorkshopAct Rehearsal.Disturbance := do
  let w ← get
  let chain ← home
  if has d "claim" then
    return .claim (← lift (foreignClaim chain w.names (field d "claim")))
  else if has d "revert" then
    match w.names.transfer? w.r.stage.ledger (text d "revert") with
    | some t => return .revert t.dedupeKey
    | none => refuse (fault "NoTransfer")
  else
    match ← lift (refusal? chain (w.names.resolve "route_id" d)) with
    | some e => return .refusal e
    | none => return .nothing

/-- Steps on orders and settlements. -/
def settleStep? (d : Data) : Option (WorkshopAct Data) :=
  match text d "do" with
  | "order" => some do
    let amount ← lift (typedField d "amount" Amount.ofData?)
    let token ← lift (typedField d "token" Token.ofData?)
    madeOrder (← perform (Order.place amount token (text d "reference")))
  | "route" => some do
    let request ← request d
    match ← perform (Flow.ledger (.order request.orderId)) with
    | none => refuse (fault "NoOrder")
    | some order =>
      let route ← performOr reconcileError (request.open? (← getOwn).ingest.rules order)
      perform (Flow.ledger (.insertRoute route))
      madeRoute route
  | "expire_order" => some do
    return .bool (← performOr ledgerError (Flow.ledger (.expireOrder (← orderIdField d))))
  | "deposit_tracker" => some do
    let address ← lift (typedField d "address" Address.ofData?)
    let token ← optionalToken d
    let tracker ← perform (DepositTracker.watch (text d "ref") (chain d) address token)
    changeNames (·.addTracker tracker.id)
    return .null
  | "settle" => some do
    let new ← lift (typedList d "new" Transfer.ofData?)
    let w ← get
    -- A name stands for an identifier here too, and no dedupe key is one.
    let stored := (list d "existing").filterMap fun x =>
      (asText? x).bind fun key => w.r.stage.ledger.transferByKey (w.names.idOf key)
    changeNames fun names => new.foldl Names.addTransfer names
    return .record
      (planView (← performOr settleError
        (w.own.ingest.rules.settle (chain d) new stored)))
  | "ingest" => some do
    let p ← payment (field d "payment")
    return .ofOption masked (← performOr raidenError (p.ingest (← getOwn).ingest.rules))
  | "feed" => some do
    let events ← lift (typedList d "events" PaymentEvent.ofData?)
    changeStage fun s =>
      let h := s.history.getD {}
      { s with history := some { h with
          events := h.events ++ events
          failure := (word? d "fail").map (·.toNat) } }
    return .null
  | "poller" => some do
    let tokens ← lift (typedList d "tokens" Address.ofData?)
    let node ← lift (typedField d "node" Address.ofData?)
    changeOwn fun w =>
      { w with poller := some ⟨w.ingest.chain, node, "", tokens, 50 * nanosPerMilli,
          w.ingest.rules, .empty⟩ }
    return .null
  | "raiden_poll" => some do
    match (← getOwn).poller with
    | none => refuse (fault "NoPoller")
    | some p =>
      direct fun r => ((), r.forgetAsked)
      let (p, outcome) ← perform p.poll
      changeOwn fun w => { w with poller := some p }
      let asked := (← get).r.asked
      return .record (entriesOr raidenError (fun n => [("recorded", .ofNat n)]) outcome
        ++ [("offsets", .ofList .ofNat asked)])
  | "poller_run" => some do
    match (← getOwn).poller with
    | none => refuse (fault "NoPoller")
    | some p =>
      direct fun r => ((), r.forgetAsked.runPoller p (nat d "ms" 0))
      changeOwn fun w => { w with poller := none }
      return .record [("offsets", .ofList .ofNat (← get).r.asked)]
  | "disturb" => some do
    let more ← (list d "commits").mapM disturbance
    changeStage fun s => { s with disturbances := s.disturbances ++ more }
    return .null
  | "dump" => some do dump (← getOwn).ingest.chain
  | "transfers" => some storedTransfers
  | "unmatched" => some do
    let key ← lift (typedField d "key" MatchKey.ofData?)
    let token ← lift (typedField d "token" Token.ofData?)
    return .ofList (fun t : Transfer => t.id.toData)
      ((← stage).ledger.unmatchedConfirmed key token)
  | _ => none

end Paywatch.Script
