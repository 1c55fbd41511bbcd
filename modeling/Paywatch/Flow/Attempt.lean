import Paywatch.Flow.Basic

/-!
# Attempts

A change that was planned from what the ledger said a moment ago may find that another
writer was faster. Then the plan is made anew from the state of now, at most
`Attempt.limit` times in all.
-/

namespace Paywatch

/-- How one attempt ended. -/
inductive Attempt (ε α : Type) where
  | done (a : α)
  /-- Another writer was faster. -/
  | conflict
  | failed (e : ε)

namespace Attempt

variable {ε α : Type}

def limit : Nat := 3

/-- An attempt that ends with a commit. -/
def ofCommit (wrap : LedgerError → ε) (a : α) : Except LedgerError Unit → Attempt ε α
  | .ok () => .done a
  | .error e => if e.isConflict then .conflict else .failed (wrap e)

/-- Tries until there is no conflict, at most `n` times. -/
def upTo (exhausted : ε) (attempt : Flow (Attempt ε α)) : (n : Nat) → Flow (Except ε α)
  | 0 => pure (.error exhausted)
  | n + 1 => do
    match ← attempt with
    | .done a => return .ok a
    | .failed e => return .error e
    | .conflict => upTo exhausted attempt n

end Attempt

end Paywatch
