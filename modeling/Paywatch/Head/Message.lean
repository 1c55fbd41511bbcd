import Paywatch.Backoff
import Paywatch.Head.Range
import Paywatch.Head.Window
import Paywatch.Node.Basic

/-!
# The stream of a chain

What the tracker of a chain tells the worker: the next block, a reorganisation, that no
provider answers, or that it has stopped for good.
-/

namespace Paywatch

inductive Message where
  /-- The next block; `live` is false while the chain catches up. -/
  | accepted (block : Block) (live : Bool)
  | reverted (range : RevertedRange)
  /-- Every provider failed; the next attempt comes after so many nanoseconds. -/
  | unavailable (attempt : UInt32) (retryIn : Nat)
  | halted (reason : String)
deriving DecidableEq, Repr

/-- Why the tracker cannot go on. -/
inductive TrackerError where
  | provider (e : ProviderError)
  | reorgTooDeep (chain : ChainId) (maxDepth : UInt64) (tip : Height)
  | inconsistentBranch (height : Height)
  /-- No error that a caller sees: a sum or difference of heights is no word,
  and the program panics. -/
  | overflow
deriving DecidableEq, Repr

namespace TrackerError

def message : TrackerError → String
  | provider e => "Provider error: " ++ e.message
  | reorgTooDeep chain maxDepth tip =>
    "Reorg on chain " ++ chain.text ++ " deeper than " ++ Text.decimalWord maxDepth
      ++ " blocks below accepted tip " ++ Text.decimalWord tip
  | inconsistentBranch height =>
    "Canonical branch changed while resolving reorg at height " ++ Text.decimalWord height
  | overflow => Height.panicMessage

/-- A transient failure is tried again; any other halts the chain. -/
def isTransient : TrackerError → Bool
  | reorgTooDeep .. => false
  | overflow => false
  | _ => true

end TrackerError

structure TrackerSettings where
  maxReorgDepth : UInt64
  maxBlocksPerPoll : UInt64
  /-- Nanoseconds between two looks at the head. -/
  pollInterval : Nat
  backoff : BackoffSettings
deriving Inhabited

/-- Follows the head of a chain: the newest accepted blocks, enough of them to find the
fork of any reorganisation that is not too deep. -/
structure Tracker where
  chain : ChainId
  settings : TrackerSettings
  window : BlockWindow
deriving Inhabited

namespace Tracker

def emptyWindow (s : TrackerSettings) : BlockWindow :=
  .ofCapacity (s.maxReorgDepth.toNat + 1)

def new (chain : ChainId) (s : TrackerSettings) : Tracker := ⟨chain, s, emptyWindow s⟩

def tip? (t : Tracker) : Option BlockRef := t.window.tip?

/-- Starts from blocks that were processed before. -/
def seed (t : Tracker) (refs : List BlockRef) : Tracker :=
  { t with window := t.window.seed refs }

/-- Starts anew from one block. -/
def resetBase (t : Tracker) (block : Block) : Tracker :=
  { t with window := (emptyWindow t.settings).push block.ref }

def push (t : Tracker) (block : Block) : Tracker :=
  { t with window := t.window.push block.ref }

end Tracker

end Paywatch
