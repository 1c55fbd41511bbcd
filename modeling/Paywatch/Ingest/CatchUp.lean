import Paywatch.Head.Advance
import Paywatch.Ingest.Block
import Paywatch.Ingest.Keeper

/-!
# Catching up

Before a worker follows the head of its chain it ingests what it missed. It goes
on from the watermark, unless that lies too far below the head; the remembered
blocks show a reorganisation that happened meanwhile. Otherwise it starts anew, a
given depth below the head.
-/

namespace Paywatch

structure CatchUpReport where
  resumeFrom : Height
  head : Height
  blocks : Nat := 0
  reverts : Nat := 0
deriving DecidableEq, Repr

/-- How far catching up came; no report means that it was told to stop. -/
structure CatchUp where
  tracker : Tracker
  keeper : Keeper
  outcome : Except WorkerError (Option CatchUpReport)

namespace CatchUp

/-- The height so far below another one, or zero. -/
def below (head : Height) (depth : UInt64) : Height :=
  if head ≤ depth then 0 else head - depth

/-- Where catching up starts: at the watermark, but no deeper below the
head than `depth`. -/
def resumeHeight (watermark : Option Height) (head : Height) (depth : UInt64) : Height :=
  match watermark with
  | none => below head depth
  | some height => if height ≤ below head depth then below head depth else height

/-- Counts a message that was applied. -/
def count (r : CatchUpReport) : Message → CatchUpReport
  | .accepted .. => { r with blocks := r.blocks + 1 }
  | .reverted _ => { r with reverts := r.reverts + 1 }
  | .unavailable .. => r
  | .halted _ => r

/-- Goes on until the tracker has come to the head of the report. `fuel` bounds the
rounds; each one that succeeds raises the tip. What an advance reports before a
panic is not applied. -/
def toHead (i : Ingest) : (fuel : Nat) → Tracker → Keeper → CatchUpReport → Flow CatchUp
  | fuel, t, k, report => do
    unless t.tip?.any (·.height < report.head) do return ⟨t, k, .ok (some report)⟩
    if ← Flow.ask .stopRequested then return ⟨t, k, .ok none⟩
    match ← k.renewIfDue with
    | .error e => return ⟨t, k, .error (.ledger e)⟩
    | .ok k =>
      let a ← t.advance report.head false
      if a.panics then return ⟨a.tracker, k, .error (.tracker .overflow)⟩
      match ← i.applyAll k.lease a.messages with
      | .error e => return ⟨a.tracker, k, .error e⟩
      | .ok () =>
        match a.outcome with
        | .error e => return ⟨a.tracker, k, .error (.tracker e)⟩
        | .ok () =>
          let report := a.messages.foldl count report
          match fuel with
          | 0 => return ⟨a.tracker, k, .ok (some report)⟩
          | fuel + 1 => toHead i fuel a.tracker k report

/-- The rounds that bring a tracker to a height. -/
def rounds (t : Tracker) (head : Height) : Nat :=
  match t.tip? with
  | some tip => head.toNat - tip.height.toNat
  | none => 0

/-- The tracker as it goes on from the watermark: with the remembered
blocks, if they end there. -/
def resume (i : Ingest) (t : Tracker) (mark : BlockRef) : Flow Tracker := do
  let recent ← Flow.ledger (.recentBlocks i.chain t.window.capacity)
  let seeded := t.seed recent
  return if seeded.tip? = some mark then seeded else seeded.seed [mark]

/-- Starts anew at a height. -/
def rebase (i : Ingest) (t : Tracker) (k : Keeper) (report : CatchUpReport) :
    Flow CatchUp := do
  match ← k.renewIfDue with
  | .error e => return ⟨t, k, .error (.ledger e)⟩
  | .ok k =>
    match ← t.fetchBlock report.resumeFrom with
    | .error e => return ⟨t, k, .error (.tracker e)⟩
    | .ok b =>
      let t := t.resetBase b
      match ← i.block k.lease b true with
      | .error e => return ⟨t, k, .error e⟩
      | .ok _ =>
        toHead i (rounds t report.head) t k { report with blocks := report.blocks + 1 }

/-- Brings a chain up to the head it has now. -/
def run (i : Ingest) (depth : UInt64) (t : Tracker) (k : Keeper) : Flow CatchUp := do
  match ← t.queryHead with
  | .error e => return ⟨t, k, .error (.tracker e)⟩
  | .ok head =>
    let watermark ← Flow.ledger (.watermark i.chain)
    let report : CatchUpReport :=
      { resumeFrom := resumeHeight (watermark.map (·.height)) head depth, head }
    match watermark.filter fun mark => below head depth ≤ mark.height with
    | none => rebase i t k report
    | some mark =>
      let t ← resume i t mark
      toHead i (rounds t head) t k report

end CatchUp

end Paywatch
