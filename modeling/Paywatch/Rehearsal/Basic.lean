import Paywatch.Ingest.Worker
import Paywatch.Raiden.Poller
import Paywatch.Rehearsal.Stage

/-!
# Tasks of a rehearsal

A task runs until it has to wait: for an answer of a node, for a time, for a
message, for room in a channel, or for its tracker to end. Tasks that can go on
stand in line. What one task does wakes those that may wait for it; a task that was
woken too early waits on.
-/

namespace Paywatch

namespace Rehearsal

/-- The messages of a tracker on their way to whoever follows it. -/
structure Channel where
  capacity : Nat
  messages : List Message := []
  /-- Nobody takes messages any more. -/
  abandoned : Bool := false
  /-- The tracker has ended. -/
  ended : Bool := false
  /-- The request to the tracker to stop. -/
  stop : Signal := {}
deriving Inhabited

/-- What a flow is run as. -/
inductive Role where
  /-- A tracker sends into a channel. -/
  | tracker (channel : Nat)
  /-- A worker takes from the channel of its tracker, if it has one. -/
  | worker (channel : Option Nat)
  | other
deriving DecidableEq, Repr

/-- A role, and the number of changes of its stop signal that were seen. -/
structure Seat where
  role : Role
  seen : Nat := 0
deriving DecidableEq, Repr

/-- What is known of a call that waits. -/
structure Pause where
  /-- The millisecond at which the waiting ends at the latest. -/
  latest : Option Nat
  /-- The node was offline when it was called. -/
  offline : Bool := false
  /-- The node answers before its time is up. -/
  inTime : Bool := true
deriving DecidableEq, Repr

/-- What a task does turn by turn. -/
inductive Duty where
  | follow (f : Follower)
  | work (w : Worker) (s : WorkerState)
  | collect (p : Poller)

/-- How a turn ends. -/
inductive Next where
  | goOn (d : Duty)
  | over (exit : Option WorkerExit)

namespace Duty

/-- One turn. -/
def turn : Duty → Flow Next
  | follow f => do
    match ← f.turn with
    | some f => return .goOn (follow f)
    | none => return .over none
  | work w s => do
    match ← w.turn s with
    | .goOn s => return .goOn (work w s)
    | .exit e => return .over (some e)
  | collect p => do
    match ← p.turn with
    | some p => return .goOn (collect p)
    | none => return .over none

/-- One turn, with questions to a chain put to its providers. -/
def flow (d : Duty) : Flow Next := Failover.expand d.turn

end Duty

/-- A task between two runs. -/
structure Task where
  seat : Seat
  /-- What is left of the turn. -/
  rest : Flow Next
  pause : Option Pause := none

end Rehearsal

open Rehearsal in
structure Rehearsal where
  stage : Stage
  channels : Table Nat Channel := .empty
  tasks : Table Nat Task := .empty
  /-- The tasks that can go on, in the order in which they will. -/
  line : List Nat := []
  /-- When tasks are to be woken: the millisecond and the task. -/
  timers : List (Nat × Nat) := []
  /-- How many tasks and channels were made. -/
  made : Nat := 0
  /-- How workers ended. -/
  exits : Table Nat WorkerExit := .empty

namespace Rehearsal

/-- Lets a task stand in line. -/
def wake (r : Rehearsal) (id : Nat) : Rehearsal :=
  if r.line.contains id then r else { r with line := r.line ++ [id] }

/-- Wakes the tasks of some roles. -/
def wakeRoles (r : Rehearsal) (p : Role → Bool) : Rehearsal :=
  (r.tasks.entries.filter fun e => p e.2.seat.role).foldl (fun r e => r.wake e.1) r

def changeChannel (r : Rehearsal) (id : Nat) (f : Channel → Channel) : Rehearsal :=
  { r with channels := r.channels.modify id f }

/-- Wakes the tracker of a channel. -/
def wakeTracker (r : Rehearsal) (channel : Nat) : Rehearsal :=
  r.wakeRoles (· == .tracker channel)

/-- Wakes the worker that follows the tracker of a channel. -/
def wakeWorker (r : Rehearsal) (channel : Nat) : Rehearsal :=
  r.wakeRoles (· == .worker (some channel))

/-- Starts a task; gives its number. -/
def start (r : Rehearsal) (role : Role) (seen : Nat) (d : Duty) : Nat × Rehearsal :=
  let id := r.made
  (id, { r with
    made := id + 1
    tasks := r.tasks.insert id ⟨⟨role, seen⟩, d.flow, none⟩ }.wake id)

/-- Starts a tracker; gives the number of its channel. -/
def startTracker (r : Rehearsal) (t : Tracker) (capacity : Nat) : Nat × Rehearsal :=
  let channel := r.made
  let r := { r with
    made := channel + 1
    channels := r.channels.insert channel { capacity } }
  (channel, (r.start (.tracker channel) 0 (.follow (.start t))).2)

/-- Tells a tracker to stop and takes no more messages from it. -/
def dismiss (r : Rehearsal) (channel : Nat) : Rehearsal :=
  (r.changeChannel channel fun c =>
    { c with abandoned := true, stop := c.stop.set true }).wakeTracker channel

/-- Sets the request to stop. -/
def setStop (r : Rehearsal) (on : Bool) : Rehearsal :=
  { r with stage := { r.stage with stop := r.stage.stop.set on } }.wakeRoles fun
    | .tracker _ => false
    | _ => true

/-- The stop signal that a role listens to. -/
def signalOf (r : Rehearsal) : Role → Signal
  | .tracker channel => ((r.channels.get? channel).map (·.stop)).getD {}
  | _ => r.stage.stop

/-- The next message of a channel. -/
def pop? (r : Rehearsal) (channel : Nat) : Option (Message × Rehearsal) :=
  match (r.channels.get? channel).map (·.messages) with
  | some (m :: rest) =>
    some (m, (r.changeChannel channel fun c => { c with messages := rest }).wakeTracker
      channel)
  | _ => none

/-- The channel of a tracker that has ended, or of none. -/
def hasEnded (r : Rehearsal) (channel : Nat) : Bool :=
  (r.channels.get? channel).all (·.ended)

/-- Takes a task out that has come to its end. -/
def finish (r : Rehearsal) (id : Nat) (seat : Seat) (exit : Option WorkerExit) :
    Rehearsal :=
  let r := { r with
    tasks := r.tasks.erase id
    timers := r.timers.filter (·.2 ≠ id)
    exits := match exit with
      | some e => r.exits.insert id e
      | none => r.exits }
  match seat.role with
  | .tracker channel =>
    (r.changeChannel channel fun c => { c with ended := true }).wakeWorker channel
  | _ => r

/-- Keeps a task that waits, with a timer for the latest time. -/
def park (r : Rehearsal) (id : Nat) (t : Task) : Rehearsal :=
  let r := { r with tasks := r.tasks.insert id t }
  match t.pause.bind (·.latest) with
  | none => { r with timers := r.timers.filter (·.2 ≠ id) }
  | some latest =>
    if r.timers.contains (latest, id) then r
    else { r with timers := r.timers.filter (·.2 ≠ id) ++ [(latest, id)] }

/-- Sets the clock forward and wakes the tasks whose time has come. -/
def advanceTo (r : Rehearsal) (clock : Nat) : Rehearsal :=
  let due := r.timers.filter (·.1 ≤ clock)
  let r := { r with
    stage := { r.stage with clock := max r.stage.clock clock }
    timers := r.timers.filter fun t => !(t.1 ≤ clock) }
  due.foldl (fun r t => r.wake t.2) r

/-- The time of the next timer. -/
def nextTimer? (r : Rehearsal) : Option Nat := (r.timers.map (·.1)).min?

end Rehearsal

end Paywatch
