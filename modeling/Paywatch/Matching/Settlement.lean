import Paywatch.Flow.Attempt

/-!
# Settlement outside of blocks

Payments through Raiden, bookings between accounts, and stored transfers that a new
route may match are settled at once: a plan is made from what the ledger holds,
committed as a whole, and announced after the commit.
-/

namespace Paywatch

namespace MatchKey

/-- The keys of the destinations that transfers paid into, each once. -/
def ofTransfers (ts : List Transfer) : List MatchKey :=
  (ts.filterMap ofTransfer?).eraseDups

end MatchKey

namespace Draft

/-- Gives every deposit its identifier and time. -/
def stamp (d : Draft) : Flow Plan := do
  let deposits ← d.deposits.mapM fun deposit => do
    return deposit.record (← Flow.ask .stamp)
  return ⟨d.claims, deposits⟩

/-- Leaves out the deposits of transfers that went through the trackers before. -/
def withoutDepositsOf (d : Draft) (stored : List Transfer) : Draft :=
  { d with
    deposits := d.deposits.filter fun x => !stored.any fun t => t.id == x.transferId }

end Draft

/-- Why a settlement failed. -/
inductive SettleError where
  | ledger (e : LedgerError)
  | reconcile (e : ReconcileError)
  | conflict (attempts : Nat)
deriving DecidableEq, Repr

namespace SettleError

def message : SettleError → String
  | ledger e => "Store error: " ++ e.message
  | reconcile e => "Reconciliation error: " ++ e.message
  | conflict attempts =>
    "Settlement still conflicting after " ++ Text.decimal attempts ++ " attempts"

end SettleError

namespace MatchingRules

/-- Plans, commits and announces once. -/
def settleOnce (rules : MatchingRules) (chain : ChainId) (new stored : List Transfer) :
    Flow (Attempt SettleError Plan) := do
  let ts := new ++ stored
  let ctx ← Flow.ledger (.matchContext chain (MatchKey.ofTransfers ts))
  match rules.plan ctx ts with
  | .error e => return .failed (.reconcile e)
  | .ok draft =>
    let plan ← (draft.withoutDepositsOf stored).stamp
    let commit ← Flow.ledger (.commitPlan (new.map .insert) plan)
    match Attempt.ofCommit SettleError.ledger plan commit with
    | .done plan =>
      Flow.publishAll plan.notices
      return .done plan
    | refused => return refused

/-- Records new transfers and matches them, together with stored ones, with the open
routes and the trackers of a chain. -/
def settle (rules : MatchingRules) (chain : ChainId) (new stored : List Transfer) :
    Flow (Except SettleError Plan) :=
  Attempt.upTo (.conflict Attempt.limit) (rules.settleOnce chain new stored) Attempt.limit

end MatchingRules

end Paywatch
