import Mathlib.Logic.Relation
import Paywatch.Proofs.Head.Stream
import Paywatch.Proofs.Ingest.Recorded
import Paywatch.Proofs.Ledger.Settlement

/-!
# Following one chain

A session is a tracker and what applies its messages in order, in surroundings where
orders and routes come and go.  Nodes may answer anything, in particular go over to
another branch and back.

A live event has a transfer, and the transfer is pending or confirmed unless a
reorganisation took the same block back while the transfer was pending.  In that case
the event is recorded anew, but its transfer stays reverted.
-/

namespace Paywatch

namespace Ledger

/-- The call commits transfers. -/
def Call.commits : Call → Bool
  | .commit _ => true
  | .commitPlan .. => true
  | _ => false

/-- All other calls leave transfers and events alone. -/
structure SameRecords (l after : Ledger) : Prop where
  events : after.events = l.events
  orphans : after.orphans = l.orphans
  transfers : after.transfers = l.transfers
  recorded : after.recorded = l.recorded

theorem sameRecords_perform (l : Ledger) {c : Call} (plain : c.commits = false) :
    SameRecords l (l.perform c).2 := by
  cases c with
  | commit b => cases plain
  | commitPlan writes p => cases plain
  | insertOrder o => exact ⟨rfl, rfl, rfl, rfl⟩
  | insertRoute r => exact ⟨rfl, rfl, rfl, rfl⟩
  | expireOrder id =>
      simp only [perform]
      cases expired : l.expireOrder id with
      | error e => exact ⟨rfl, rfl, rfl, rfl⟩
      | ok result =>
          simp only
          rw [expireOrder_frame expired]
          exact ⟨rfl, rfl, rfl, rfl⟩
  | _ =>
      rw [perform_frame l rfl]
      exact ⟨rfl, rfl, rfl, rfl⟩

end Ledger

/-- A tracker, what it told that is not applied yet, what both live in, and the dedupe
keys of the transfers that were taken back so far. -/
structure Session where
  tracker : Tracker
  messages : List Message
  surroundings : Surroundings
  taken : List String

namespace Session

def ledger (s : Session) : Ledger := s.surroundings.ledger

/-- A new tracker and an empty ledger. -/
def start (i : Ingest) (settings : TrackerSettings) : Session :=
  ⟨Tracker.new i.chain settings, [], ⟨.empty, []⟩, []⟩

/-- The dedupe keys of the transfers that a message takes back. -/
def takenBy (l : Ledger) : Message → List String
  | .reverted range => l.takenBy range
  | _ => []

inductive Step (i : Ingest) (catalog : Catalog) : Session → Session → Prop where
  /-- The tracker goes on, and tells what it found, also if it fails in the end. -/
  | advance (s : Session) (target : Height) (live : Bool) (a : Tracker.Advance)
      (after : Surroundings)
      (runs : (s.tracker.advance target live).Runs catalog s.surroundings a after) :
      Step i catalog s
        { s with
          tracker := a.tracker
          messages := s.messages ++ a.messages
          surroundings := after }
  /-- The oldest message is applied, under whatever lease. -/
  | apply (s : Session) (m : Message) (rest : List Message) (lease : Lease)
      (after : Surroundings)
      (next : s.messages = m :: rest) (leaseChain : lease.chain = i.chain)
      (runs : (i.apply lease m).Runs catalog s.surroundings (.ok ()) after) :
      Step i catalog s
        { s with
          messages := rest
          surroundings := after
          taken := s.taken ++ takenBy s.ledger m }
  /-- The oldest message fails and has to be applied again. -/
  | fail (s : Session) (m : Message) (rest : List Message) (lease : Lease)
      (e : WorkerError) (after : Surroundings) (next : s.messages = m :: rest)
      (leaseChain : lease.chain = i.chain)
      (runs : (i.apply lease m).Runs catalog s.surroundings (.error e) after) :
      Step i catalog s { s with surroundings := after }
  /-- Somebody else makes a call, and may take identifiers before. -/
  | call (s : Session) (c : Ledger.Call) (issued : List Ulid) (proper : c.Proper s.ledger)
      (plain : c.commits = false) (grows : s.surroundings.issued ⊆ issued) :
      Step i catalog s { s with surroundings := ⟨(s.ledger.perform c).2, issued⟩ }
  | wait (s : Session) (ticks : Nat) :
      Step i catalog s
        { s with surroundings := { s.surroundings with ledger := s.ledger.wait ticks } }

abbrev Run (i : Ingest) (catalog : Catalog) : Session → Session → Prop :=
  Relation.ReflTransGen (Step i catalog)

/-- The tracker follows the chain, and the ledger has what it told. -/
structure Tracked (i : Ingest) (s : Session) : Prop where
  recorded : s.ledger.Recorded i.chain s.surroundings.issued s.taken
  trackerChain : s.tracker.chain = i.chain
  ofChain : ∀ m ∈ s.messages, m.IsOf i.chain

variable {i : Ingest} {catalog : Catalog} {settings : TrackerSettings} {s after : Session}

theorem tracked_start : Tracked i (start i settings) :=
  ⟨Ledger.recorded_empty i.chain [], rfl, by simp [start]⟩

theorem exists_standsAt (t : Tracker) : ∃ highest, t.StandsAt highest := by
  unfold Tracker.StandsAt
  cases t.tip? with
  | none => exact ⟨0, rfl⟩
  | some tip => exact ⟨tip.height.toNat, rfl⟩

theorem recorded_apply {lease : Lease} {m : Message} {s after : Surroundings}
    {taken : List String} (leaseChain : lease.chain = i.chain) (ofChain : m.IsOf i.chain)
    (grows : s.issued ⊆ after.issued) (applied : i.Applied lease s after m)
    (recorded : s.ledger.Recorded i.chain s.issued taken) :
    after.ledger.Recorded i.chain after.issued (taken ++ takenBy s.ledger m) := by
  cases m with
  | accepted b live =>
      obtain ⟨h, ingested⟩ := applied
      rw [show takenBy s.ledger (.accepted b live) = [] from rfl, List.append_nil]
      exact recorded.block ingested rfl ofChain grows
  | reverted range =>
      have reverted := reverted_of_commit recorded.toKeyed leaseChain ofChain applied
      exact (recorded.revert ofChain reverted).congr rfl rfl rfl rfl grows
  | unavailable attempt retryIn =>
      have sameLedger : after.ledger = s.ledger := applied
      rw [show takenBy s.ledger (.unavailable attempt retryIn) = [] from rfl,
        List.append_nil, sameLedger]
      exact recorded.congr rfl rfl rfl rfl grows
  | halted reason =>
      have sameLedger : after.ledger = s.ledger := applied
      rw [show takenBy s.ledger (.halted reason) = [] from rfl,
        List.append_nil, sameLedger]
      exact recorded.congr rfl rfl rfl rfl grows

theorem tracked_step (consistent : catalog.Consistent) (tracked : Tracked i s)
    (step : Step i catalog s after) : Tracked i after := by
  cases step with
  | advance target live a surroundings runs =>
      obtain ⟨highest, stands⟩ := exists_standsAt s.tracker
      obtain ⟨rfl, reports⟩ := Tracker.runs_advance stands runs
      refine ⟨tracked.recorded, reports.chain.trans tracked.trackerChain, ?_⟩
      intro m member
      rcases List.mem_append.1 member with old | new
      · exact tracked.ofChain m old
      · rw [← tracked.trackerChain]
        exact reports.ofChain m new
  | apply m rest lease surroundings next leaseChain runs =>
      have ofChain := tracked.ofChain
      rw [next, List.forall_mem_cons] at ofChain
      rcases Ingest.runs_apply consistent runs with ⟨⟨e, failed⟩, -⟩ | ⟨-, grows, applied⟩
      · cases failed
      · exact ⟨recorded_apply leaseChain ofChain.1 grows applied tracked.recorded,
          tracked.trackerChain, ofChain.2⟩
  | fail m rest lease e surroundings next leaseChain runs =>
      rcases Ingest.runs_apply consistent runs with ⟨-, quiet⟩ | ⟨ok, -⟩
      · refine ⟨?_, tracked.trackerChain, tracked.ofChain⟩
        have sameLedger : surroundings.ledger = s.ledger := quiet.ledger
        simp only [ledger, sameLedger]
        exact tracked.recorded.congr rfl rfl rfl rfl quiet.issued
      · cases ok
  | call c issued proper plain grows =>
      have same := Ledger.sameRecords_perform s.ledger plain
      exact ⟨tracked.recorded.congr same.events same.orphans same.transfers
        same.recorded grows, tracked.trackerChain, tracked.ofChain⟩
  | wait ticks =>
      exact ⟨tracked.recorded.congr rfl rfl rfl rfl fun _ member => member,
        tracked.trackerChain, tracked.ofChain⟩

theorem tracked_run (consistent : catalog.Consistent)
    (run : Run i catalog (start i settings) s) : Tracked i s := by
  induction run with
  | refl => exact tracked_start
  | tail _ step ih => exact tracked_step consistent ih step

/-! ## Playing a session -/

/-- What happens next in a session that is played. -/
inductive Act where
  | acquire (holder : String) (ttl : Nat)
  | advance (n : Nodes) (target : Height)
  | apply (n : Nodes) (lease : Lease)

/-- The session afterwards, if all went well. -/
def act (i : Ingest) (catalog : Catalog) (s : Session) : Act → Option Session
  | .acquire holder ttl =>
    let acquired := (s.ledger.perform (.acquire i.chain holder ttl)).2
    some { s with surroundings := ⟨acquired, s.surroundings.issued⟩ }
  | .advance n target =>
    let flow := s.tracker.advance target true
    let (a, after) := flow.run (Surroundings.perform catalog n) s.surroundings
    if flow.keepsPromises catalog n s.surroundings then
      some
        { s with
          tracker := a.tracker
          messages := s.messages ++ a.messages
          surroundings := after }
    else none
  | .apply n lease =>
    match s.messages with
    | [] => none
    | m :: rest =>
      let flow := i.apply lease m
      let (r, after) := flow.run (Surroundings.perform catalog n) s.surroundings
      if lease.chain = i.chain ∧ r.isOk ∧ flow.keepsPromises catalog n s.surroundings then
        some
          { s with
            messages := rest
            surroundings := after
            taken := s.taken ++ takenBy s.ledger m }
      else none

theorem step_of_act {a : Act} (played : act i catalog s a = some after) :
    Step i catalog s after := by
  cases a with
  | acquire holder ttl =>
      cases played
      exact .call s _ _ ⟨rfl, by simp [Ledger.Call.settled]⟩ rfl fun _ member => member
  | advance n target =>
      simp only [act] at played
      split at played
      · rename_i promises
        cases played
        exact .advance s target true _ _ (Flow.runs_run _ _ promises)
      · cases played
  | apply n lease =>
      simp only [act] at played
      split at played
      · cases played
      · rename_i m rest next
        split at played
        · rename_i good
          obtain ⟨leaseChain, ok, promises⟩ := good
          cases played
          have runs := Flow.runs_run _ _ promises
          cases result : ((i.apply lease m).run (Surroundings.perform catalog n)
              s.surroundings).1 with
          | error e =>
              rw [result] at ok
              cases ok
          | ok u =>
              rw [result] at runs
              exact .apply s m rest lease _ next leaseChain runs
        · cases played

/-- A played session is a run. -/
theorem run_of_play {acts : List Act}
    (played : acts.foldlM (act i catalog) s = some after) : Run i catalog s after := by
  apply reflTransGen_of_foldlM ?_ played
  intro there a next acted
  exact step_of_act acted

/-! ## A voyage out and home -/

def sampleCatalog : Catalog :=
  ⟨[⟨⟨1⟩, .zero, .native, [.nativeTransfer], .native ⟨1⟩, none⟩]⟩

theorem listed_sampleCatalog :
    Catalog.ofEntries [⟨⟨1⟩, .zero, .native, [], none, none⟩] = .ok sampleCatalog := rfl

def sampleIngest : Ingest := ⟨⟨1⟩, 1, {}⟩

/-- Reorganisations may reach two blocks deep. -/
def sampleSettings : TrackerSettings := ⟨2, 100, 0, {}⟩

def sampleLease : Lease := ⟨⟨1⟩, 1, "worker"⟩

/-- A block and the payments in it. -/
def sampleBlock (height : Height) (hash parent : String) (txs : List Tx) :
    Block × List Tx :=
  (⟨⟨1⟩, height, hash, parent, 0⟩, txs)

def samplePayment : Tx :=
  ⟨"0xf0", 0, some Address.zero.text, some Address.zero.text, "0x5"⟩

/-- The branch with a payment in its second block. -/
def homeBranch : Nodes :=
  ⟨[sampleBlock 1 "0x01" "0x00" [], sampleBlock 2 "0xa2" "0x01" [samplePayment],
    sampleBlock 3 "0xa3" "0xa2" [], sampleBlock 4 "0xa4" "0xa3" []]⟩

/-- A branch from the first block on without the payment. -/
def otherBranch : Nodes :=
  ⟨[sampleBlock 1 "0x01" "0x00" [], sampleBlock 2 "0xb2" "0x01" [],
    sampleBlock 3 "0xb3" "0xb2" []]⟩

/-- The last block that there can be. -/
def lastBlock : Block := ⟨⟨1⟩, 18446744073709551615, "0xfff", "0xffe", 0⟩

/-- Nodes that know this block and no other. -/
def lastNodes : Nodes := ⟨[(lastBlock, [])]⟩

/-- The chain is followed up to the payment. -/
def voyageOut : List Act :=
  [.acquire "worker" 10, .advance homeBranch 1, .apply homeBranch sampleLease,
    .advance homeBranch 2, .apply homeBranch sampleLease]

/-- The nodes go over to the other branch, and then come back to the block
of the payment. -/
def voyageHome : List Act :=
  [.advance otherBranch 3, .apply otherBranch sampleLease, .apply otherBranch sampleLease,
    .apply otherBranch sampleLease, .advance homeBranch 4, .apply homeBranch sampleLease,
    .apply homeBranch sampleLease]

/-- Some live event has a transfer with this status. -/
def hasLive (status : TransferStatus) (s : Session) : Bool :=
  s.ledger.events.values.any fun e =>
    (s.ledger.transferByKey e.dedupeKey).any fun t => t.status == status

theorem exists_live_of_play {acts : List Act} {status : TransferStatus}
    (played : (acts.foldlM (act i catalog) (start i settings)).any (hasLive status) =
      true) :
    ∃ s, Run i catalog (start i settings) s ∧ ∃ k e t, s.ledger.events.get? k = some e ∧
      s.ledger.transferByKey e.dedupeKey = some t ∧ t.status = status := by
  obtain ⟨s, reached, has⟩ := (Option.any_eq_true _ _).1 played
  obtain ⟨e, member, some⟩ := List.any_eq_true.1 has
  obtain ⟨k, live⟩ := Table.mem_values_iff.1 member
  obtain ⟨t, found, same⟩ := (Option.any_eq_true _ _).1 some
  exact ⟨s, run_of_play reached, k, e, t, live, found, beq_iff_eq.1 same⟩

/-! ## Live events -/

/-- Every live event has its transfer, and that is reverted exactly if it was taken
back:  if an earlier reorganisation took back the same block while the transfer was
pending.  The event is then among the orphans as well. -/
theorem transfer_of_live_event {entries : List TargetEntry}
    (listed : Catalog.ofEntries entries = .ok catalog)
    (run : Run i catalog (start i settings) s) {k : EventKey} {e : ChainEvent}
    (live : s.ledger.events.get? k = some e) :
    ∃ t, s.ledger.transferByKey e.dedupeKey = some t ∧ t.dedupeKey = e.dedupeKey ∧
      (t.status = .reverted ↔ e.dedupeKey ∈ s.taken) ∧
      (e.dedupeKey ∈ s.taken → ∃ o ∈ s.ledger.orphans, o.dedupeKey = e.dedupeKey) := by
  have recorded := (tracked_run (Catalog.consistent_of_ofEntries listed) run).recorded
  obtain ⟨id, known⟩ := recorded.covered k e live
  obtain ⟨t, found, sameKey⟩ := recorded.known _ id known
  refine ⟨t, ?_, sameKey, ?_, recorded.orphaned _⟩
  · rw [Ledger.transferByKey, known]
    exact found
  · rw [← sameKey]
    exact recorded.reverted_iff id t found

/-- Up to the payment nothing was taken back, so its transfer is not reverted. -/
theorem transfer_of_live_event_voyage : ∃ s, Run sampleIngest sampleCatalog
    (start sampleIngest sampleSettings) s ∧ ∃ k e t, s.ledger.events.get? k = some e ∧
      s.ledger.transferByKey e.dedupeKey = some t ∧ t.status = .pending ∧
      e.dedupeKey ∉ s.taken := by
  have played : ((voyageOut).foldlM (act sampleIngest sampleCatalog)
      (start sampleIngest sampleSettings)).any (hasLive .pending) =
        true := by decide +kernel
  obtain ⟨s, run, k, e, t, live, found, pending⟩ := exists_live_of_play played
  obtain ⟨t', found', -, reverted_iff, -⟩ :=
    transfer_of_live_event listed_sampleCatalog run live
  obtain rfl := Option.some.inj (found.symm.trans found')
  refine ⟨s, run, k, e, t, live, found, pending, ?_⟩
  intro taken
  rw [reverted_iff.2 taken] at pending
  cases pending

/-- It is not true that the transfer of every live event is pending or
confirmed:  after the voyage home the event of the payment is live, and its
transfer is reverted for good. -/
theorem live_event_may_be_lost : ¬ ∀ (i : Ingest) (settings : TrackerSettings)
    (entries : List TargetEntry) (catalog : Catalog) (s : Session), 1 ≤ i.depth →
    Catalog.ofEntries entries = .ok catalog → Run i catalog (start i settings) s →
    ∀ k e, s.ledger.events.get? k = some e →
      ∃ t, s.ledger.transferByKey e.dedupeKey = some t ∧
      (t.status = .pending ∨ t.status = .confirmed) := by
  intro claim
  have played : ((voyageOut ++ voyageHome).foldlM (act sampleIngest sampleCatalog)
      (start sampleIngest sampleSettings)).any (hasLive .reverted) =
        true := by decide +kernel
  obtain ⟨s, run, k, e, t, live, found, reverted⟩ := exists_live_of_play played
  obtain ⟨t', found', status⟩ :=
    claim sampleIngest sampleSettings _ sampleCatalog s (by decide)
    listed_sampleCatalog run k e live
  obtain rfl := Option.some.inj (found.symm.trans found')
  rw [reverted] at status
  rcases status with status | status <;> cases status

end Session

end Paywatch
