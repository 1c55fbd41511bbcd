import Paywatch.Rehearsal.Basic

/-!
# Running a rehearsal

Tasks run one after the other, each as far as it gets. The clock goes on only when all
of them wait; it then jumps to the next time somebody waits for. A flow can also be run
in the foreground:  it goes before all tasks, and they run while it waits.
-/

namespace Paywatch

namespace Rehearsal

/-- What comes of a call. -/
inductive Outcome (c : Call) where
  | answered (reply : c.Reply) (seat : Seat) (r : Rehearsal)
  | waits (p : Pause) (r : Rehearsal)

/-- The first millisecond at which so many nanoseconds have passed since the start. -/
def millisAt (nanos : Nat) : Nat := (nanos + (nanosPerMilli - 1)) / nanosPerMilli

/-- The nanoseconds that have passed since the start. -/
def nanos (r : Rehearsal) : Nat := r.stage.clock * nanosPerMilli

/-- Waits until a time that has not come, if no more can be said. -/
def waitOr {c : Call} (r : Rehearsal) (latest : Nat) (answer : Outcome c) (p : Pause) :
    Outcome c :=
  if latest ≤ r.stage.clock then answer else .waits { p with latest := some latest } r

/-- The answer of a node whose time has come. -/
def nodeReply (r : Rehearsal) (node : ScriptedNode) (p : Pause) (q : Query) : q.Reply :=
  if p.inTime then node.answer p.offline q else .error (.timeout r.stage.callTimeout)

/-- Begins a call of a node: a scripted answer comes at once, any other after its
latency, unless that is longer than the time a node is given. -/
def askNode (r : Rehearsal) (seat : Seat) (id : ProviderId) (q : Query) :
    Outcome (.ask id q) :=
  match r.stage.nodes.get? id with
  | none => .answered (.error (.rpcConnection "no connection")) seat r
  | some node =>
    let (early, node) := node.intercept q
    let keep (node : ScriptedNode) : Rehearsal :=
      { r with stage := { r.stage with nodes := r.stage.nodes.insert id node } }
    match early with
    | some reply => .answered reply seat (keep node)
    | none =>
      let node := { node with calls := node.calls + 1 }
      let r := keep node
      let latency := node.latency.getD 0
      let p : Pause :=
        { latest := none, offline := node.offline,
          inTime := latency ≤ r.stage.callTimeout }
      r.waitOr (r.stage.clock + min latency r.stage.callTimeout)
        (.answered (r.nodeReply node p q) seat r) p

/-- Ends a call of a node, if its time has come. -/
def resumeNode (r : Rehearsal) (seat : Seat) (p : Pause) (id : ProviderId) (q : Query) :
    Outcome (.ask id q) :=
  if p.latest.any (r.stage.clock < ·) then .waits p r
  else
    match r.stage.nodes.get? id with
    | none => .answered (.error (.rpcConnection "no connection")) seat r
    | some node => .answered (r.nodeReply node p q) seat r

/-- Rests until a time, or until the stop signal changes. -/
def restUntil (r : Rehearsal) (seat : Seat) (nanos latest : Nat) :
    Outcome (.rest nanos) :=
  let changes := (r.signalOf seat.role).changes
  if seat.seen < changes then .answered () { seat with seen := changes } r
  else r.waitOr latest (.answered () seat r) ⟨none, false, true⟩

/-- Sends a message, or waits for room. -/
def sendMessage (r : Rehearsal) (seat : Seat) (m : Message) : Outcome (.send m) :=
  match seat.role with
  | .tracker channel =>
    match r.channels.get? channel with
    | some c =>
      if c.abandoned then .answered false seat r
      else if c.messages.length < c.capacity then
        .answered true seat ((r.changeChannel channel fun c =>
          { c with messages := c.messages ++ [m] }).wakeWorker channel)
      else .waits ⟨none, false, true⟩ r
    | none => .answered false seat r
  | _ => .answered false seat r

/-- Lets the tracker of a worker go, and waits until it has ended. -/
def awaitTracker (r : Rehearsal) (seat : Seat) (told : Bool) : Outcome .stopTracker :=
  match seat.role with
  | .worker (some channel) =>
    let r := if told then r else r.dismiss channel
    if r.hasEnded channel then .answered () { seat with role := .worker none } r
    else .waits ⟨none, false, true⟩ r
  | _ => .answered () seat r

/-- Waits for what comes first. If several things have come, the stop signal goes before
messages and messages before times. -/
def awaitEvent (r : Rehearsal) (seat : Seat) (renewalAt probeAt : Nat) :
    Outcome (.await renewalAt probeAt) :=
  match seat.role with
  | .worker (some channel) =>
    let changes := r.stage.stop.changes
    if seat.seen < changes then .answered .signal { seat with seen := changes } r
    else
      match r.pop? channel with
      | some (m, r) => .answered (.message m) seat r
      | none =>
        if r.hasEnded channel then .answered .closed seat r
        else if renewalAt ≤ r.nanos then .answered .renewal seat r
        else if probeAt ≤ r.nanos then .answered .probe seat r
        else .waits ⟨some (millisAt (min renewalAt probeAt)), false, true⟩ r
  | _ => .answered .closed seat r

/-- Answers a call that needs no waiting. -/
def prompt {c : Call} (r : Rehearsal) (seat : Seat) (x : c.Reply × Stage) : Outcome c :=
  .answered x.1 seat { r with stage := x.2 }

/-- Tries to answer a call; a call that waited before says how. -/
def attempt (r : Rehearsal) (seat : Seat) (pause : Option Pause) : (c : Call) → Outcome c
  | .ledger c => r.prompt seat (r.stage.callLedger c)
  | .node chain _ =>
    -- Flows are expanded before they are run, so that nobody asks a chain as a whole.
    .answered (.error (.unavailable chain 0 "no providers registered")) seat r
  | .ask id q =>
    match pause with
    | some p => r.resumeNode seat p id q
    | none => r.askNode seat id q
  | .candidates chain => r.prompt seat (r.stage.candidates chain)
  | .members chain => .answered ((r.stage.registry.members chain).map (·.id)) seat r
  | .isScaling chain => .answered (r.stage.registry.isScaling chain) seat r
  | .report id outcome =>
    r.prompt seat ((), r.stage.register (r.stage.registry.report id outcome))
  | .reportSync id synced =>
    r.prompt seat ((), r.stage.register (r.stage.registry.reportSync id synced))
  | .reportFees id sample =>
    r.prompt seat ((), r.stage.register ((r.stage.registry.reportFees id sample).2, []))
  | .stamp => r.prompt seat r.stage.stamp
  | .now => r.prompt seat r.stage.tick
  | .identifier => r.prompt seat r.stage.identifier
  | .publish n => r.prompt seat ((), r.stage.publish [n])
  | .watchlist chain => .answered (r.stage.catalog.watchlist chain) seat r
  | .setPhase chain phase =>
    r.prompt seat ((), { r.stage with board := r.stage.board.setPhase chain phase })
  | .blockProcessed chain height =>
    r.prompt seat
      ((), { r.stage with board := r.stage.board.blockProcessed chain height })
  | .markHalted chain reason =>
    r.prompt seat ((), { r.stage with board := r.stage.board.halt chain reason })
  | .clock => .answered r.nanos seat r
  | .stopRequested => .answered (r.signalOf seat.role).on seat r
  | .rest nanos =>
    let latest := (pause.bind (·.latest)).getD (millisAt (r.nanos + nanos))
    r.restUntil seat nanos latest
  | .send m => r.sendMessage seat m
  | .startTracker t capacity =>
    let (channel, r) := r.startTracker t capacity
    .answered () { seat with role := .worker (some channel) } r
  | .stopTracker => r.awaitTracker seat pause.isSome
  | .await renewalAt probeAt => r.awaitEvent seat renewalAt probeAt
  | .payments url _ offset => r.prompt seat (r.stage.payments url offset)

/-- How far a turn came in one run. -/
inductive TurnState where
  | ended (n : Next) (seat : Seat) (r : Rehearsal)
  | paused (t : Task) (r : Rehearsal)

/-- Runs a turn as far as it gets. -/
def runTurn (r : Rehearsal) (seat : Seat) (pause : Option Pause) : Flow Next → TurnState
  | .done n => .ended n seat r
  | .call c next =>
    match r.attempt seat pause c with
    | .answered reply seat r => runTurn r seat none (next reply)
    | .waits p r => .paused ⟨seat, .call c next, some p⟩ r

/-- How many turns a task may take before others have theirs. -/
def burst : Nat := 64

/-- Runs a task turn by turn until it has to wait, at most `fuel` turns and one. -/
def runTurns (id : Nat) : (fuel : Nat) → Rehearsal → Task → Rehearsal
  | fuel, r, t =>
    match runTurn r t.seat t.pause t.rest with
    | .paused t r => r.park id t
    | .ended (.over exit) seat r => r.finish id seat exit
    | .ended (.goOn d) seat r =>
      match fuel with
      | 0 => (r.park id ⟨seat, d.flow, none⟩).wake id
      | fuel + 1 => runTurns id fuel r ⟨seat, d.flow, none⟩

/-- Runs a task, if it has not ended. -/
def runTask (r : Rehearsal) (id : Nat) : Rehearsal :=
  match r.tasks.get? id with
  | some t => runTurns id burst r t
  | none => r

/-- The earlier of two times. -/
def earlier? : Option Nat → Option Nat → Option Nat
  | some a, some b => some (min a b)
  | none, b => b
  | a, none => a

/-- Lets the tasks run until the foreground can go on: when `holds` does or the deadline
has come.  If nobody waits for a time any more it ends too. `fuel` bounds the runs of
tasks and the moves of the clock. -/
def letRun (holds : Rehearsal → Bool) (deadline : Option Nat) :
    (fuel : Nat) → Rehearsal → Rehearsal
  | 0, r => r
  | fuel + 1, r =>
    match r.line with
    | id :: rest => letRun holds deadline fuel ({ r with line := rest }.runTask id)
    | [] =>
      if holds r then r
      else
        match earlier? r.nextTimer? deadline with
        | none => r
        | some time =>
          let r := r.advanceTo time
          if deadline.any (· ≤ time) then r else letRun holds deadline fuel r

/-- More runs of tasks than any rehearsal takes while the foreground waits. -/
def horizon : Nat := 10000000

/-- Lets the tasks run until a condition holds. -/
def runUntil (r : Rehearsal) (holds : Rehearsal → Bool) (deadline : Option Nat) :
    Rehearsal :=
  if holds r then r else letRun holds deadline horizon r

/-- Lets the tasks run for so many milliseconds. -/
def sleep (r : Rehearsal) (millis : Nat) : Rehearsal :=
  if millis = 0 then r else r.runUntil (fun _ => false) (some (r.stage.clock + millis))

/-- Runs an expanded flow in the foreground. -/
def runForeground {α : Type} (r : Rehearsal) : Flow α → Option α × Rehearsal
  | .done a => (some a, r)
  | .call c next =>
    let seat : Seat := ⟨.other, r.stage.stop.changes⟩
    match r.attempt seat none c with
    | .answered reply _ r => runForeground r (next reply)
    | .waits p r =>
      let r := r.runUntil (fun _ => false) p.latest
      match r.attempt seat (some p) c with
      | .answered reply _ r => runForeground r (next reply)
      | .waits _ r => (none, r)

/-- Runs a flow in the foreground; there is no result if it waits for what never comes. -/
def perform {α : Type} (r : Rehearsal) (flow : Flow α) : Option α × Rehearsal :=
  r.runForeground (Failover.expand flow)

end Rehearsal

end Paywatch
