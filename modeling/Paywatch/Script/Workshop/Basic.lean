import Paywatch.Script.Nodes
import Paywatch.Script.Stored

/-!
# Workshops

A workshop holds the parts of one chain that a script works with by hand: how blocks are
ingested, a tracker, a lease that is kept, leases with names, and a poller.
-/

namespace Paywatch.Script

structure Workshop where
  ingest : Ingest
  settings : TrackerSettings
  tracker : Tracker
  /-- The channel of a tracker that runs as a task. -/
  channel : Option Nat
  keeper : Option Keeper
  poller : Option Poller
  leases : Table String Lease

abbrev WorkshopAct := Act Workshop

def home : WorkshopAct ChainId := return (← getOwn).ingest.chain

/-- The lease of a step: the one it names, else that of the keeper, else
one nobody holds. -/
def stepLease (d : Data) : WorkshopAct Lease := do
  let w ← getOwn
  match (text? d "lease").bind w.leases.get?, w.keeper with
  | some lease, _ => return lease
  | none, some k => return k.lease
  | none, none => return ⟨w.ingest.chain, 0, ""⟩

/-- An outcome as entries: those of the error, or those of the value. -/
def entriesOr {ε β : Type} (write : ε → Data) (ok : β → List (String × Data)) :
    Except ε β → List (String × Data)
  | .ok b => ok b
  | .error e => entriesOf (write e)

end Paywatch.Script
