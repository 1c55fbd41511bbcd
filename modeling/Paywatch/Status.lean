import Paywatch.Chain.Block
import Paywatch.Table

/-!
# Progress of chains

What each chain is doing and how far it has come. A chain that halted stays halted.
-/

namespace Paywatch

inductive Phase where
  | starting | waitingForLease | backfilling | live | unavailable | halted | stopped
deriving DecidableEq, Repr

namespace Phase

def text : Phase → String
  | starting => "starting"
  | waitingForLease => "waiting_for_lease"
  | backfilling => "backfilling"
  | live => "live"
  | unavailable => "unavailable"
  | halted => "halted"
  | stopped => "stopped"

end Phase

structure Progress where
  phase : Phase := .starting
  lastBlock : Option Height := none
  haltedReason : Option String := none
deriving DecidableEq, Inhabited

/-- The progress of every chain that has made some. -/
structure StatusBoard where
  chains : Table ChainId Progress
deriving Inhabited

namespace StatusBoard

def progress (b : StatusBoard) (chain : ChainId) : Progress :=
  (b.chains.get? chain).getD {}

def isHalted (b : StatusBoard) (chain : ChainId) : Bool :=
  (b.progress chain).phase == .halted

def update (b : StatusBoard) (chain : ChainId) (f : Progress → Progress) : StatusBoard :=
  ⟨b.chains.insert chain (f (b.progress chain))⟩

def setPhase (b : StatusBoard) (chain : ChainId) (phase : Phase) : StatusBoard :=
  b.update chain fun p => if p.phase = .halted then p else { p with phase }

/-- A processed block ends a time without providers. -/
def blockProcessed (b : StatusBoard) (chain : ChainId) (height : Height) : StatusBoard :=
  b.update chain fun p =>
    { p with
      lastBlock := some height
      phase := if p.phase = .unavailable then .live else p.phase }

def halt (b : StatusBoard) (chain : ChainId) (reason : String) : StatusBoard :=
  b.update chain fun p => { p with phase := .halted, haltedReason := some reason }

end StatusBoard

end Paywatch
