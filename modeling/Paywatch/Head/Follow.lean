import Paywatch.Head.Advance

/-!
# Following the head

A tracker that follows its chain looks at the head again and again and hands on what it
finds. It goes on at once while the chain is ahead, waits for the poll interval
otherwise, and backs off while it cannot go on. A reorganisation that is too deep ends
it, and so does a panic, after which it hands on nothing.
-/

namespace Paywatch

/-- A tracker between two looks at the head. -/
structure Follower where
  tracker : Tracker
  backoff : Backoff
  /-- The failures in a row. -/
  attempt : UInt32
deriving Inhabited

namespace Follower

def start (t : Tracker) : Follower := ⟨t, Backoff.start t.settings.backoff, 0⟩

/-- Counters stop at the largest number. -/
def countUp (n : UInt32) : UInt32 := if n = 0xffffffff then n else n + 1

/-- Hands on messages until nobody takes them any more; tells whether all were taken. -/
def sendAll : List Message → Flow Bool
  | [] => pure true
  | m :: rest => do
    if ← Flow.ask (.send m) then sendAll rest else return false

/-- Rests and goes on as `f`. -/
def restAs (f : Follower) (nanos : Nat) : Flow (Option Follower) := do
  Flow.ask (.rest nanos)
  return some f

/-- One look at the head and the rest after it; `none` at the end. -/
def turn (f : Follower) : Flow (Option Follower) := do
  if ← Flow.ask .stopRequested then return none
  let p ← f.tracker.poll
  if p.panics then return none
  unless ← sendAll p.messages do return none
  let f := { f with tracker := p.tracker }
  match p.outcome with
  | .ok behind =>
    restAs { f with backoff := f.backoff.reset, attempt := 0 }
      (if behind then 0 else f.tracker.settings.pollInterval)
  | .error e =>
    if e.isTransient then
      let (delay, backoff) := f.backoff.next
      let f := { f with backoff, attempt := countUp f.attempt }
      match e with
      | .provider _ =>
        unless ← Flow.ask (.send (.unavailable f.attempt delay)) do return none
        f.restAs delay
      | _ => f.restAs delay
    else
      discard <| Flow.ask (.send (.halted e.message))
      return none

end Follower

end Paywatch
