import Paywatch.Proofs.Ingest.Session
import Paywatch.Proofs.Ledger.Apart

/-!
# No recording is lost

An event is recorded, and it is live until a reorganisation takes its block back.  Then
it is an orphan for good.  The same event may be recorded once more when its block
comes back.  Whatever is done with a ledger, all that it ever recorded is live or an
orphan, each recording once.
-/

namespace Paywatch.Ledger

variable {l after : Ledger}

/-- The events of a list that are recorded when their turn comes, and not
passed over for their keys. -/
def recording (l : Ledger) : List ChainEvent → List ChainEvent
  | [] => []
  | e :: rest =>
      if l.events.contains e.key then l.recording rest
        else e :: (l.writeEvent e).recording rest

/-- The orphans and the live events. -/
def recordings (l : Ledger) : List ChainEvent := l.orphans ++ l.events.values

/-- The events that a call records. -/
def Call.recording (l : Ledger) : Call → List ChainEvent
  | .commit b => if (l.commit b).isOk then (l.takenBack b).recording b.events else []
  | _ => []

/-- What is recorded comes after what is there. -/
theorem values_foldl_writeEvent (l : Ledger) (es : List ChainEvent) :
    (es.foldl writeEvent l).events.values = l.events.values ++ l.recording es := by
  induction es generalizing l with
  | nil => simp [recording]
  | cons e rest ih =>
      rw [List.foldl_cons, ih, recording]
      cases found : l.events.get? e.key with
      | some d =>
          have known : l.events.contains e.key = true := by simp [Table.contains, found]
          have same : l.writeEvent e = l := by
            rw [writeEvent, Table.insertNew, if_pos known]
          rw [same, if_pos known]
      | none =>
          have unknown : ¬l.events.contains e.key = true := by
            simp [Table.contains, found]
          rw [if_neg unknown, writeEvent, Table.insertNew, if_neg unknown, Table.values,
            Table.entries_insert_of_fresh found, List.map_append, List.append_assoc]
          rfl

/-- What is taken back was live, and is an orphan. -/
theorem recordings_takenBack (l : Ledger) (b : Batch) :
    (l.takenBack b).recordings.Perm l.recordings := by
  unfold takenBack
  cases b.reverted with
  | none => exact .refl _
  | some range =>
      have stays : (l.revertRange b.chain range).events.values =
          l.events.values.filter fun e =>
            !(e.chain == b.chain && range.contains e.blockHeight) := by
        rw [Table.values, Table.values, List.filter_map]
        rfl
      rw [recordings, recordings, stays]
      simp only [revertRange, List.append_assoc]
      exact (List.filter_append_perm _ _).append_left _

theorem recordings_commit {b : Batch} (accepted : l.commit b = .ok after) :
    after.recordings.Perm (l.recordings ++ (l.takenBack b).recording b.events) := by
  have committed := committed_of_commit accepted
  rw [recordings, committed.orphans, committed.events, values_foldl_writeEvent,
    ← List.append_assoc]
  exact (l.recordings_takenBack b).append_right _

theorem orphans_commitPlan {writes : List TransferWrite} {plan : Plan}
    (accepted : l.commitPlan writes plan = .ok after) : after.orphans = l.orphans := by
  simp only [commitPlan, bind_eq_ok] at accepted
  obtain ⟨_, -, _, -, result⟩ := accepted
  cases result
  rw [writePlan, foldl_writeDeposit_frame, foldl_writeClaim_frame,
    foldl_writeTransfer_frame]

/-- Whatever is called, the recordings are those before and those of the call. -/
theorem recordings_perform (l : Ledger) (c : Call) :
    (l.perform c).2.recordings.Perm (l.recordings ++ c.recording l) := by
  cases c with
  | commit b =>
      simp only [perform, Call.recording]
      cases accepted : l.commit b with
      | error e => simp [attempt, Except.isOk, Except.toBool]
      | ok next => exact recordings_commit accepted
  | commitPlan writes plan =>
      simp only [perform, Call.recording, List.append_nil]
      cases accepted : l.commitPlan writes plan with
      | error e => exact .refl _
      | ok next =>
          simp only [attempt, recordings, events_commitPlan accepted,
            orphans_commitPlan accepted]
          exact .refl _
  | _ =>
      simp only [Call.recording, List.append_nil, recordings]
      rw [(sameRecords_perform l rfl).events, (sameRecords_perform l rfl).orphans]

end Paywatch.Ledger
