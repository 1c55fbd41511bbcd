import Paywatch.Flow.Basic

/-!
# Advancing along a chain

The tracker takes the next blocks of its chain. A block that does not stand on the
newest accepted one shows a reorganisation: the tracker goes back along the new branch
to the block where both branches part, and reports what is taken back and what takes its
place. Whatever was accepted before an error stays accepted and reported. A sum or
difference of heights that is no word ends an advance like an error.
-/

namespace Paywatch

namespace Tracker

/-- A tracker that went on, what it reported, and whether it came to its goal. -/
structure Advance where
  tracker : Tracker
  messages : List Message
  outcome : Except TrackerError Unit

/-- The program panics in the middle of the advance. -/
def Advance.panics (a : Advance) : Bool := a.outcome matches .error .overflow

def queryHead (t : Tracker) : Flow (Except TrackerError Height) := do
  return (← Flow.ask (.node t.chain .head)).mapError .provider

def fetchBlock (t : Tracker) (height : Height) : Flow (Except TrackerError Block) := do
  return (← Flow.ask (.node t.chain (.block height))).mapError .provider

def tooDeep (t : Tracker) (tip : BlockRef) : TrackerError :=
  .reorgTooDeep t.chain t.settings.maxReorgDepth tip.height

/-- How many blocks there are from `height` up to the tip. -/
def orphaned? (tip : BlockRef) (height : Height) : Option UInt64 :=
  (tip.height.minus? height).bind (·.plus? 1)

/-- Goes back from `height` to the accepted block with the expected hash: that
block, and the new blocks above it, oldest first. `fuel` bounds the way; it is never
longer than the window. -/
def walkBack (t : Tracker) (tip : BlockRef) : (fuel : Nat) → (height : Height) →
    (expected : String) → (branch : List Block) →
    Flow (Except TrackerError (BlockRef × List Block))
  | fuel, height, expected, branch =>
    match t.window.hashAt? height with
    | none => pure (.error (t.tooDeep tip))
    | some accepted =>
      if accepted = expected then pure (.ok (⟨height, expected⟩, branch))
      else
        match orphaned? tip height with
        | none => pure (.error .overflow)
        | some orphaned =>
          if t.settings.maxReorgDepth < orphaned ∨
            height = 0 then pure (.error (t.tooDeep tip))
          else
            match fuel with
            | 0 => pure (.error (t.tooDeep tip))
            | fuel + 1 => do
              match ← t.fetchBlock height with
              | .error e => return .error e
              | .ok ancestor =>
                if ancestor.hash = expected then
                  walkBack t tip fuel (height - 1) ancestor.parentHash
                    (ancestor :: branch)
                else return .error (.inconsistentBranch height)

/-- Finds where the branch of `child` parts from the accepted one: what is taken back,
and the new blocks below `child`. -/
def findFork (t : Tracker) (child : Block) :
    Flow (Except TrackerError (RevertedRange × List Block)) := do
  match t.tip? with
  | none => return .error (.inconsistentBranch child.height)
  | some tip =>
    match ← walkBack t tip t.window.size tip.height child.parentHash [] with
    | .error e => return .error e
    | .ok (fork, branch) =>
      match fork.height.plus? 1 with
      | none => return .error .overflow
      | some above => return .ok (⟨t.chain, above, tip.height, fork⟩, branch)

def hasNext (t : Tracker) : Bool := t.window.hasNext

/-- Accepts blocks one after the other. The window compares each with the
height after its tip. -/
def accept (t : Tracker) (live : Bool) (sent : List Message) : List Block → Advance
  | [] => ⟨t, sent, .ok ()⟩
  | block :: rest =>
    if t.hasNext then (t.push block).accept live (sent ++ [.accepted block live]) rest
    else ⟨t, sent, .error .overflow⟩

/-- Gives up the blocks of a range and accepts those that take their place. -/
def switch (t : Tracker) (live : Bool) (sent : List Message) (range : RevertedRange)
    (blocks : List Block) : Advance :=
  let back := { t with window := t.window.truncateAbove range.forkPoint.height }
  back.accept live (sent ++ [.reverted range]) blocks

/-- Takes the block after the tip. -/
def takeNext (t : Tracker) (live : Bool) (sent : List Message) (height : Height) :
    Flow Advance := do
  match ← t.fetchBlock height with
  | .error e => return ⟨t, sent, .error e⟩
  | .ok block =>
    unless t.hasNext do return ⟨t, sent, .error .overflow⟩
    if t.tip?.all block.extends? then return t.accept live sent [block]
    else
      match ← t.findFork block with
      | .error e => return ⟨t, sent, .error e⟩
      | .ok (range, branch) => return t.switch live sent range (branch ++ [block])

/-- Takes so many blocks from `height` on. -/
def takeBlocks (live : Bool) : (count : Nat) → (height : Height) → Advance → Flow Advance
  | 0, _, a => pure a
  | count + 1, height, a => do
    let a ← a.tracker.takeNext live a.messages height
    match a.outcome with
    | .ok () =>
      match height.plus? 1 with
      | none => return { a with outcome := .error .overflow }
      | some next => takeBlocks live count next a
    | .error _ => return a

/-- Goes on to `target`, but by no more blocks than the settings allow at once. Without
a tip it starts at `target`. -/
def advance (t : Tracker) (target : Height) (live : Bool) : Flow Advance := do
  match t.tip? with
  | none =>
    match ← t.fetchBlock target with
    | .error e => return ⟨t, [], .error e⟩
    | .ok block => return t.accept live [] [block]
  | some tip =>
    if target ≤ tip.height then return ⟨t, [], .ok ()⟩
    match tip.height.plus? t.settings.maxBlocksPerPoll, tip.height.plus? 1 with
    | some most, some next =>
      takeBlocks live ((min target most).toNat - tip.height.toNat) next ⟨t, [], .ok ()⟩
    | _, _ => return ⟨t, [], .error .overflow⟩

/-- A look at the head. -/
structure Poll where
  tracker : Tracker
  messages : List Message
  /-- Whether the chain is still ahead. -/
  outcome : Except TrackerError Bool

/-- The program panics in the middle of the look. -/
def Poll.panics (p : Poll) : Bool := p.outcome matches .error .overflow

/-- Looks at the head and goes on towards it. -/
def poll (t : Tracker) : Flow Poll := do
  match ← t.queryHead with
  | .error e => return ⟨t, [], .error e⟩
  | .ok head =>
    let a ← t.advance head true
    match a.outcome with
    | .error e => return ⟨a.tracker, a.messages, .error e⟩
    | .ok () => return ⟨a.tracker, a.messages, .ok (a.tracker.tip?.any (·.height < head))⟩

end Tracker

end Paywatch
