import Paywatch.Proofs.Matching.Bureau
import Paywatch.Proofs.Matching.Undisturbed

/-!
# Blocks that are never refused

The planner and the committer look at different things:  a plan is made for a context of
open routes and orders, while a commit looks at the transfers that are replaced, at the
routes and orders that are claimed, and at all the transfers that were ever claimed.  At
an orderly ledger the first implies the second.  So an attempt to commit a block or a
reorganisation that follows the watermark is refused only if its lease was lost, or if
somebody else wrote to the ledger between its questions and its commit.
-/

namespace Paywatch

namespace Attempt

variable {α : Type}

/-- An attempt is done, unless the lease was not held when it was to be committed. -/
def Accepted (lease : Lease) (result : Attempt WorkerError α) (after : Ledger) : Prop :=
  (∃ x, result = .done x) ∨
    result = .failed (.ledger (.leaseLost lease.chain)) ∧ after.holds lease = false

/-- An attempt whose batch fits the ledger is accepted. -/
theorem quietly_conclude {x : α} {ns : List Notice} {b : Batch} {l : Ledger}
    {moves : Bool} (writable : ∀ w ∈ b.writes, l.checkWrite w = .ok ())
    (claimable : ∀ k ∈ b.claims, l.checkClaim k = .ok ())
    (links : b.advances (l.watermark b.chain)
      (l.recordedHash? b.chain b.target.height) = .ok moves) :
    (conclude WorkerError.ledger x ns (Flow.ledger (.commit b))).Quietly
      (Accepted b.lease) l := by
  refine guarantees_conclude
    ((Flow.guarantees_ask (c := .ledger (.commit b))).2 ⟨trivial, ?_⟩)
  rintro reply after ⟨_, ⟨ticks, rfl⟩, answer, same⟩
  have decided := Ledger.commit_of_checks (l := l.wait ticks) writable claimable links
  rw [← answer] at decided
  cases held : (l.wait ticks).holds b.lease with
  | true =>
      obtain rfl : reply = .ok () := by simpa [held] using decided
      exact Flow.guarantees_publishAll ns (fun _ _ => trivial) fun _ _ => Or.inl ⟨x, rfl⟩
  | false =>
      obtain rfl : reply = .error (.leaseLost b.chain) := by simpa [held] using decided
      refine Or.inr ⟨rfl, ?_⟩
      rw [same, Ledger.perform, Ledger.attempt_refused answer.symm]
      exact held

end Attempt

namespace Ingest

variable {i : Ingest} {l now : Ledger}

/-- Nobody disturbs the making of a plan:  its claims are on what is open. -/
theorem quietly_plan (i : Ingest) (ordered : l.Ordered) (later : l.Later now)
    {confirmed : List Transfer} (different : Different confirmed) :
    (i.plan confirmed).Quietly (fun result after => l.Later after ∧
      ∃ plan, result = .ok plan ∧ Settles confirmed plan.claims ∧ ∀ k ∈ plan.claims,
        k.OnOpen (l.matchContext i.chain (MatchKey.ofTransfers confirmed))) now := by
  unfold plan
  split
  · exact ⟨later, .empty, rfl, fun _ => nofun, fun _ => nofun⟩
  · refine Flow.quietly_ledger_bind rfl fun told since => ?_
    have same :
        (told.perform (.matchContext i.chain (MatchKey.ofTransfers confirmed))).1 =
        l.matchContext i.chain (MatchKey.ofTransfers confirmed) := by
      obtain ⟨ticks, rfl⟩ := later.trans since
      rfl
    obtain ⟨draft, planned, onOpen⟩ :=
      ordered.plan i.rules i.chain (MatchKey.ofTransfers confirmed) different
    simp only [same, planned]
    refine Flow.guarantees_bind.2 ((Draft.quietly_stamp draft told).imp ?_)
    rintro plan after ⟨claims, last⟩
    refine ⟨(later.trans since).trans last, plan, rfl, ?_⟩
    rw [claims]
    exact ⟨settles_of_plan planned, onOpen⟩

section Block

variable {start : Batch} {failures : Nat} {events : List ChainEvent} {new : List Transfer}
    {moves : Bool}

/-- What is pending may be replaced, and what is new may be inserted. -/
theorem writable_confirmation (ordered : l.Ordered) {time : Instant} :
    ∀ w ∈ (confirmation i.depth start.target.height time (l.pendingTransfers i.chain)
      new).1, l.checkWrite w = .ok () := by
  intro w member
  rcases mem_confirmation_writes member with ⟨u, told, t, due, rfl⟩ | ⟨u, -, rfl⟩
  · have became := Transfer.confirmedAs_of_due due
    exact ordered.checkWrite_of_pending (List.mem_filter.1 told).1
      became.wasPending became.id
  · rfl

/-- What becomes confirmed settled nothing before. -/
theorem unclaimed_confirmation (ordered : l.Ordered) (steady : l.Steady)
    (unclaimed : ∀ t ∈ new, l.isClaimed t.id = false) {time : Instant} {t : Transfer}
    (member : t ∈
      (confirmation i.depth start.target.height time (l.pendingTransfers i.chain)
        new).2) :
    l.isClaimed t.id = false := by
  rcases List.mem_append.1 member with due | due
  · obtain ⟨u, told, confirmed⟩ := List.mem_filterMap.1 due
    have became := Transfer.confirmedAs_of_due confirmed
    have found := ordered.get?_of_mem (List.mem_filter.1 told).1
    refine Bool.eq_false_iff.2 fun claimed => ?_
    -- A claimed transfer that is stored is confirmed, but this one is pending.
    obtain ⟨route, r, there, consumer⟩ := Ledger.isClaimed_iff.1 claimed
    rw [became.id] at consumer
    have final := steady route r u.id u there consumer found
    rw [became.wasPending] at final
    cases final
  · obtain ⟨u, isNew, confirmed⟩ := List.mem_filterMap.1 due
    rw [(Transfer.confirmedAs_of_due confirmed).id]
    exact unclaimed u isNew

/-- An attempt to commit a block that nobody disturbs is accepted. -/
theorem quietly_blockOnce (ordered : l.Ordered) (steady : l.Steady)
    (different : Different new) (unstored : ∀ t ∈ new, l.transfers.get? t.id = none)
    (unclaimed : ∀ t ∈ new, l.isClaimed t.id = false)
    (links : start.advances (l.watermark start.chain)
      (l.recordedHash? start.chain start.target.height) = .ok moves) :
    (i.blockOnce start failures events new).Quietly (Attempt.Accepted start.lease) l := by
  rw [blockOnce_eq]
  refine Flow.quietly_ledger_bind rfl fun told first => ?_
  have pending :
      (told.perform (.pendingTransfers i.chain)).1 = l.pendingTransfers i.chain := by
    obtain ⟨ticks, rfl⟩ := first
    rfl
  rw [pending]
  refine Flow.guarantees_ask_bind.2 ⟨trivial, fun time asked second => ?_⟩
  have apart : Different (l.pendingTransfers i.chain ++ new) := by
    refine different_append.2 ⟨?_, different, fun t stored u brought same => ?_⟩
    · exact (Table.nodup_values ordered.transfer).sublist (List.filter_sublist.map _)
    · have nothing := unstored u brought
      rw [← same, ordered.get?_of_mem (List.mem_filter.1 stored).1] at nothing
      cases nothing
  have later := first.trans second
  refine Flow.guarantees_bind.2
    ((i.quietly_plan ordered later (different_confirmed apart)).imp ?_)
  rintro _ planning ⟨later, plan, rfl, settles, onOpen⟩
  obtain ⟨ticks, rfl⟩ := later
  refine Attempt.quietly_conclude ?_ ?_ links
  · exact writable_confirmation ordered
  · intro k member
    obtain ⟨t, among, -, same⟩ := settles k member
    refine ordered.checkClaim_of_onOpen (onOpen k member) ?_
    rw [same]
    exact unclaimed_confirmation ordered steady unclaimed among

end Block

/-- An attempt to commit a reorganisation that nobody disturbs is accepted. -/
theorem quietly_revertOnce (ordered : l.Ordered) {lease : Lease} {range : RevertedRange}
    {moves : Bool}
    (links : (Batch.ofRevert lease range).advances (l.watermark lease.chain)
      (l.recordedHash? lease.chain range.forkPoint.height) = .ok moves) :
    (i.revertOnce lease range).Quietly (Attempt.Accepted lease) l := by
  rw [revertOnce_eq]
  refine Flow.quietly_ledger_bind rfl ?_
  rintro _ ⟨ticks, rfl⟩
  refine Attempt.quietly_conclude ?_ (fun _ => nofun) links
  intro w member
  obtain ⟨t, reverted, rfl⟩ := List.mem_map.1 member
  obtain ⟨u, told, changed⟩ := List.mem_filterMap.1 reverted
  obtain ⟨⟨-, wasPending⟩, rfl⟩ := Transfer.revertIn?_eq_some.1 changed
  exact ordered.checkWrite_of_pending (List.mem_filter.1 told).1 wasPending rfl

end Ingest

namespace Bureau

variable {w : Bureau}

/-- If nobody else writes to the ledger during an attempt to commit a block or a
reorganisation that follows the watermark, the attempt is accepted as long as its lease
is held.  No plan ever fails its own check, whoever else writes. -/
theorem unrefused_of_undisturbed (run : Run start w) :
    (∀ (i : Ingest) (batch : Batch) (failures : Nat) (events : List ChainEvent)
      (new : List Transfer) (moves : Bool),
        w.About (i.blockOnce batch failures events new) →
      batch.advances (w.ledger.watermark batch.chain)
        (w.ledger.recordedHash? batch.chain batch.target.height) = .ok moves →
      Flow.Surely Undisturbed (i.blockOnce batch failures events new) w.ledger
        (Attempt.Accepted batch.lease)) ∧
    (∀ (i : Ingest) (lease : Lease) (range : RevertedRange) (moves : Bool),
      (Batch.ofRevert lease range).advances (w.ledger.watermark lease.chain)
        (w.ledger.recordedHash? lease.chain range.forkPoint.height) = .ok moves →
      Flow.Surely Undisturbed (i.revertOnce lease range) w.ledger
        (Attempt.Accepted lease)) ∧
    ∀ k : Nat, w.tasks[k]? ≠ some (.done true) := by
  obtain ⟨holder, tidy⟩ := tidy_run run
  have ordered := tidy.orderly.ordered
  refine ⟨fun i batch failures events new moves about links => ?_,
    fun i lease range moves links => ?_, tidy.checked⟩
  · obtain ⟨different, unused⟩ := tidy.brought about fun _ _ => Ingest.held_of_prudently
    exact (Ingest.quietly_blockOnce ordered tidy.orderly.steady different
      (fun t member => (unused t member).1)
        (fun t member => (unused t member).2) links).surely
  · exact (Ingest.quietly_revertOnce ordered links).surely

/-- Once its block is read, a task is about to make an attempt. -/
theorem exists_about_blockOnce (run : Run start w) (i : Ingest) (lease : Lease)
    (b : Block) (base : Bool) {failures : Nat} {events : List ChainEvent}
    {new : List Transfer} {there : Surroundings}
    (leads : (Ingest.gather b).Leads Surroundings.Permits w.surroundings
      (.ok (failures, events, new)) there) :
    ∃ after, Run start after ∧ after.surroundings = there ∧
      after.About (i.blockOnce (Ingest.startOf lease b base) failures events new) := by
  let j : Duty := .block i lease b base
  let started : Bureau := { w with tasks := w.tasks ++ [j.flow] }
  have begun : Run start started :=
    run.tail (.start w j (by simp [j, Duty.brings]) List.nodup_nil (Or.inl rfl))
  -- The task is a reading of the block and what follows.
  have asTask := congrArg (· >>= fun result => pure (endsIn WorkerError.ofPlan result))
    (Ingest.block_eq_gather i lease b base)
  rw [bind_assoc] at asTask
  obtain ⟨after, goesOn, same, about⟩ :=
    about_of_leads (w := started) (k := w.tasks.length)
    (List.getElem?_concat_length.trans (congrArg some asTask)) leads (bind_assoc ..)
  exact ⟨after, begun.trans goesOn, same, about⟩

/-- Reads a block from some nodes. -/
def reads (n : Nodes) (b : Block) (s : Surroundings) :
    Option (Except ProviderError (Nat × List ChainEvent × List Transfer) ×
      Surroundings) :=
  (Ingest.gather b).run? (Surroundings.perform Session.sampleCatalog n)
    Surroundings.keepsPromise s

theorem leads_of_reads {n : Nodes} {b : Block} {s there : Surroundings}
    {result : Except ProviderError (Nat × List ChainEvent × List Transfer)}
    (read : reads n b s = some (result, there)) :
    (Ingest.gather b).Leads Surroundings.Permits s result there :=
  Flow.leads_of_run? (fun _ _ promise => (Surroundings.answers_perform promise).permits)
    read

/-- An order is placed, a route is opened, and the block of a payment is ingested. -/
def awaiting : List Act :=
  [.acquire ⟨1⟩ "worker" 10] ++ asking ⟨.ofNat 0⟩ 0 ++ .replicate 5 (.go 1) ++
    [.start ingestPaid] ++ .replicate 7 (.go 2)

/-- An attempt to commit the next block. -/
abbrev attemptNext (failures : Nat) (events : List ChainEvent) (new : List Transfer) :
    Flow (Attempt WorkerError BlockReport) :=
  Session.sampleIngest.blockOnce (Batch.ofBlock Session.sampleLease sampleNext)
    failures events new

/-- An attempt to take back the block of the payment. -/
abbrev takeBack : Flow (Attempt WorkerError Nat) :=
  Session.sampleIngest.revertOnce Session.sampleLease ⟨⟨1⟩, 2, 2, ⟨1, "0x01"⟩⟩

/-- The attempt is done and settled a route. -/
def settlesOne : Attempt WorkerError BlockReport × Ledger → Bool
  | (.done report, _) => report.settlements == 1
  | _ => false

/-- The next block can be read and follows the watermark, and an attempt to commit
it may settle a route. -/
def canConfirm (w : Bureau) : Bool :=
  (reads Session.homeBranch sampleNext w.surroundings).any fun
    | (.ok (failures, events, new), there) =>
      there.ledger.watermark ⟨1⟩ == some ⟨2, "0xa2"⟩ &&
        there.ledger.recordedHash? ⟨1⟩ 1 == none &&
        (Undisturbed.trial? (attemptNext failures events new) there.ledger).any settlesOne
    | (.error _, _) => false

/-- A block that confirms a payment is about to be committed, and may as
well be taken back. -/
theorem unrefused_of_undisturbed_confirming :
    ∃ (w : Bureau) (failures : Nat) (events : List ChainEvent) (new : List Transfer),
      Run start w ∧ w.About (attemptNext failures events new) ∧
      Flow.Surely Undisturbed (attemptNext failures events new) w.ledger
        (Attempt.Accepted Session.sampleLease) ∧
      (∃ report after, (attemptNext failures events new).Leads Undisturbed w.ledger
        (.done report) after ∧
        report.settlements = 1) ∧
      Flow.Surely Undisturbed takeBack w.ledger (Attempt.Accepted Session.sampleLease) ∧
      ∀ k : Nat, w.tasks[k]? ≠ some (.done true) := by
  have played : (play awaiting start).any canConfirm = true := by decide +kernel
  obtain ⟨w, reached, can⟩ := (Option.any_eq_true _ _).1 played
  obtain ⟨⟨gathered, there⟩, reads, found⟩ := (Option.any_eq_true _ _).1 can
  cases gathered with
  | error e => cases found
  | ok brought =>
      obtain ⟨failures, events, new⟩ := brought
      simp only [Bool.and_eq_true, beq_iff_eq] at found
      obtain ⟨⟨isMark, forgotten⟩, tried⟩ := found
      obtain ⟨after, run, rfl, about⟩ := exists_about_blockOnce (run_of_play reached)
        Session.sampleIngest Session.sampleLease sampleNext false (leads_of_reads reads)
      obtain ⟨accepts, takesBack, passed⟩ := unrefused_of_undisturbed run
      obtain ⟨⟨result, last⟩, tries, settles⟩ := (Option.any_eq_true _ _).1 tried
      refine ⟨after, failures, events, new, run, about, ?_, ?_, ?_, passed⟩
      · refine accepts _ _ _ _ _ true about ?_
        exact (congrArg (fun mark => Batch.advances _ mark _) isMark).trans rfl
      · cases result with
        | done report =>
            exact ⟨report, last, Undisturbed.leads_of_trial? tries, beq_iff_eq.1 settles⟩
        | _ => cases settles
      · refine takesBack _ _ _ true ?_
        exact (congrArg₂ (Batch.advances _) isMark forgotten).trans rfl

/-- The last block that there can be is ingested. -/
def toTheEnd : List Act :=
  [.acquire ⟨1⟩ "worker" 10,
    .start (.block Session.sampleIngest Session.sampleLease Session.lastBlock true)] ++
    .replicate 6 (.go 0)

/-- An attempt to commit the last block once more. -/
abbrev attemptLast (failures : Nat) (events : List ChainEvent) (new : List Transfer) :
    Flow (Attempt WorkerError BlockReport) :=
  Session.sampleIngest.blockOnce (Batch.ofBlock Session.sampleLease Session.lastBlock)
    failures events new

/-- The last block can be read once more while it is the watermark, and an attempt to
commit it then overflows. -/
def overflowsAgain (w : Bureau) : Bool :=
  (reads Session.lastNodes Session.lastBlock w.surroundings).any fun
    | (.ok (failures, events, new), there) =>
      there.ledger.watermark ⟨1⟩ == some Session.lastBlock.ref &&
        there.ledger.recordedHash? ⟨1⟩ Session.lastBlock.height ==
          some Session.lastBlock.hash &&
        there.ledger.holds Session.sampleLease &&
        (Undisturbed.trial? (attemptLast failures events new) there.ledger).any
          fun (result, _) => (result matches .failed (.ledger .overflow))
    | (.error _, _) => false

/-- It is not true that every remembered block is accepted once more if nobody disturbs
it:  the last block there can be is refused. -/
theorem last_block_may_be_refused :
    ∃ (w : Bureau) (failures : Nat) (events : List ChainEvent) (new : List Transfer),
      Run start w ∧ w.About (attemptLast failures events new) ∧
      w.ledger.watermark ⟨1⟩ = some Session.lastBlock.ref ∧
      w.ledger.recordedHash? ⟨1⟩ Session.lastBlock.height = some Session.lastBlock.hash ∧
      w.ledger.holds Session.sampleLease = true ∧
      ¬ Flow.Surely Undisturbed (attemptLast failures events new) w.ledger
        (Attempt.Accepted Session.sampleLease) := by
  have played : (toTheEnd.foldlM (act Session.sampleCatalog Session.lastNodes) start).any
      overflowsAgain = true := by decide +kernel
  obtain ⟨w, reached, again⟩ := (Option.any_eq_true _ _).1 played
  obtain ⟨⟨gathered, there⟩, reads, found⟩ := (Option.any_eq_true _ _).1 again
  cases gathered with
  | error e => cases found
  | ok brought =>
      obtain ⟨failures, events, new⟩ := brought
      simp only [Bool.and_eq_true, beq_iff_eq] at found
      obtain ⟨⟨⟨isMark, remembered⟩, held⟩, tried⟩ := found
      obtain ⟨after, run, rfl, about⟩ := exists_about_blockOnce (run_of_play reached)
        Session.sampleIngest Session.sampleLease Session.lastBlock false
        (leads_of_reads reads)
      refine ⟨after, failures, events, new, run, about, isMark, remembered, held,
        fun accepts => ?_⟩
      obtain ⟨⟨result, last⟩, tries, overflows⟩ := (Option.any_eq_true _ _).1 tried
      rcases accepts.reaches _ last (Undisturbed.leads_of_trial? tries) with
        ⟨_, rfl⟩ | ⟨rfl, -⟩
      · cases overflows
      · cases overflows

end Bureau

end Paywatch
