import Paywatch.Rehearsal.Act
import Paywatch.Script.Faults
import Paywatch.Script.Names

/-!
# Scenes

A script is run step by step on a rehearsal. Each step answers with a value
or a fault, and with the notices that went out meanwhile; what a step did
before it failed stays done.
-/

namespace Paywatch.Script

/-- What every script keeps, and what one kind of script keeps besides. -/
structure Scene (α : Type) where
  r : Rehearsal
  /-- The nodes that steps can name by their place. -/
  clients : List ProviderId
  names : Names
  /-- The orders that were made. -/
  orders : List OrderId
  own : α

/-- A step; what it did stays done if it fails. -/
abbrev Act (α : Type) := ExceptT Data (StateM (Scene α))

variable {α : Type}

def refuse {β : Type} (d : Data) : Act α β := throw d

def lift {β : Type} : Answer β → Act α β
  | .ok b => pure b
  | .error d => refuse d

def stage : Act α Rehearsal.Stage := return (← get).r.stage

def changeStage (f : Rehearsal.Stage → Rehearsal.Stage) : Act α Unit :=
  modify fun w => { w with r := { w.r with stage := f w.r.stage } }

def setStage (s : Rehearsal.Stage) : Act α Unit := changeStage fun _ => s

def changeNames (f : Names → Names) : Act α Unit :=
  modify fun w => { w with names := f w.names }

def getOwn : Act α α := return (← get).own

def changeOwn (f : α → α) : Act α Unit := modify fun w => { w with own := f w.own }

/-- Changes the rehearsal and gives a result. -/
def direct {β : Type} (f : Rehearsal → β × Rehearsal) : Act α β := do
  let w ← get
  let (b, r) := f w.r
  set { w with r }
  return b

/-- Changes the rehearsal. -/
def change (f : Rehearsal → Rehearsal) : Act α Unit := direct fun r => ((), f r)

/-- Runs a flow in the foreground. -/
def perform {β : Type} (flow : Flow β) : Act α β := do
  match ← direct (·.perform flow) with
  | some b => return b
  | none => refuse (fault "Stuck")

/-- Runs a flow that may fail. -/
def performOr {ε β : Type} (write : ε → Data) (flow : Flow (Except ε β)) : Act α β := do
  lift (orFail write (← perform flow))

/-- A bus with the receiver whose notices go into the answers. -/
def heardBus (capacity : Nat) : Bus := (Bus.ofCapacity capacity).subscribe.1

/-- Runs one step: the answer, with the notices that are shown. -/
def runStep (shown : Notice → Bool) (act : Data → Act α Data) (w : Scene α) (d : Data) :
    Data × Scene α :=
  let (result, w) := (act d).run w
  let (notices, bus) := w.r.stage.bus.drain 0
  let names := w.names.addTransfers w.r.stage.ledger
  let w := { w with names, r := { w.r with stage := { w.r.stage with bus } } }
  let notices := notices.filter shown
  let events :=
    if notices.isEmpty then [] else [("events", Data.ofList noticeData notices)]
  let answer := match result with
    | .ok d => [("ok", d)]
    | .error d => entriesOf d
  (names.inData (.record (answer ++ events)), w)

/-- Runs the steps of a script. -/
def runSteps (shown : Notice → Bool) (act : Data → Act α Data) :
    Scene α → List Data → List Data
  | _, [] => []
  | w, d :: rest =>
    let (answer, w) := runStep shown act w d
    answer :: runSteps shown act w rest

/-- The step that the first of some lists of steps knows by its name. -/
def firstOf (lists : List (Data → Option (Act α Data))) (d : Data) : Act α Data :=
  (lists.findSome? fun known => known d).getD (refuse (fault "UnknownStep"))

end Paywatch.Script
