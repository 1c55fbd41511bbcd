import Paywatch.Proofs.Ingest.ExactDepth

/-!
# Replays change nothing

A remembered block at or below the watermark can be ingested once more at any time.  Its
events are known, so it brings no transfers; nothing pending is due at its height, so it
confirms nothing and nothing is settled.  What is left is an empty batch, which moves no
watermark, and there is nothing to tell.  The ledger accepts that batch, unless the
watermark is at the last height there is:  before it looks at what it remembers, it
compares the block with the height after the watermark.
-/

namespace Paywatch

namespace Flow

variable {catalog : Catalog} {answers : Answering Surroundings} {s : Surroundings}
  {told : List Notice}

/-- The ledger answers as it does. -/
theorem surely_ledger (alone : Alone catalog answers) (responsive : Responsive answers)
    {c : Ledger.Call} {goal : c.Reply → Surroundings × List Notice → Prop}
    (reached : goal (s.ledger.perform c).1
      ({ s with ledger := (s.ledger.perform c).2 }, told)) :
    Surely (Telling answers) (ledger c) (s, told) goal := by
  refine surely_ask ?_ ?_
  · obtain ⟨reply, after, answer⟩ := responsive s (.ledger c) nofun
    exact ⟨reply, (after, told), answer, rfl⟩
  · rintro reply ⟨after, told'⟩ ⟨answer, same⟩
    obtain ⟨rfl, rfl⟩ := alone _ _ _ _ answer
    obtain rfl : told' = told := same
    exact reached

/-- Whatever the time is, to ask for it changes nothing. -/
theorem surely_now (alone : Alone catalog answers) (responsive : Responsive answers)
    {goal : Instant → Surroundings × List Notice → Prop}
    (reached : ∀ now, goal now (s, told)) :
    Surely (Telling answers) (ask .now) (s, told) goal := by
  refine surely_ask ?_ ?_
  · obtain ⟨reply, after, answer⟩ := responsive s .now nofun
    exact ⟨reply, (after, told), answer, rfl⟩
  · rintro now ⟨after, told'⟩ ⟨answer, same⟩
    obtain rfl : after = s := alone _ _ _ _ answer
    obtain rfl : told' = told := same
    exact reached now

end Flow

/-- What an attempt comes to, if there is no conflict. -/
def Attempt.ofResult {ε α : Type} : Except ε α → Attempt ε α
  | .ok a => .done a
  | .error e => .failed e

/-- Without a conflict the first attempt is the only one. -/
theorem Attempt.surely_upTo {σ ε α : Type} {answers : Answering σ} {s : σ} {exhausted : ε}
    {attempt : Flow (Attempt ε α)} {goal : Except ε α → σ → Prop} (n : Nat)
    (once : Flow.Surely answers attempt s fun a after => ∃ r, a = .ofResult r ∧
      goal r after) :
    Flow.Surely answers (upTo exhausted attempt (n + 1)) s goal := by
  apply once.bind
  rintro a there ⟨r, rfl, reached⟩
  cases r <;> exact Flow.surely_pure reached

namespace Ingest

variable {catalog : Catalog} {answers : Answering Surroundings} {s : Surroundings}
  {told : List Notice} {i : Ingest} {lease : Lease} {b : Block}

/-- How a replay ends once its events are read:  with nothing to report, or, behind the
last height, with an overflow. -/
def replayed (mark : BlockRef) (b : Block) (failures : Nat) :
    Except WorkerError BlockReport :=
  if mark.height.toNat + 1 < 2 ^ 64 then .ok ⟨b.height, 0, failures, 0, 0, 0, 0⟩
  else .error (.ledger .overflow)

/-- The commit of an empty batch changes nothing, and this is what it comes to. -/
def Idles (l : Ledger) (lease : Lease) (b : Block) (report : BlockReport)
    (r : Except WorkerError BlockReport) : Prop :=
  (l.perform (.commit (.ofBlock lease b))).2 = l ∧
    Attempt.ofCommit WorkerError.ledger report
      (l.perform (.commit (.ofBlock lease b))).1 = .ofResult r

/-- A remembered block idles at or below the watermark. -/
theorem idles_of_remembered {l : Ledger} {mark : BlockRef} (held : l.holds lease = true)
    (isMark : l.watermark lease.chain = some mark) (low : b.height ≤ mark.height)
    (remembered : l.recordedHash? lease.chain b.height = some b.hash) (failures : Nat) :
    Idles l lease b ⟨b.height, 0, failures, 0, 0, 0, 0⟩ (replayed mark b failures) := by
  unfold Idles replayed
  split
  · rename_i notLast
    have accepted := Ledger.commit_ofBlock_old held isMark low notLast remembered
    simp [Ledger.perform, Ledger.attempt, accepted, Attempt.ofCommit, Attempt.ofResult]
  · rename_i last
    have refused := Ledger.commit_ofBlock_last (b := b) held isMark (Nat.not_lt.1 last)
    simp [Ledger.perform, Ledger.attempt, refused, Attempt.ofCommit, Attempt.ofResult,
      LedgerError.isConflict]

/-- A block without new events, below what is pending, settles nothing. -/
theorem surely_blockOnce (alone : Alone catalog answers) (responsive : Responsive answers)
    (nothingDue : ∀ t ∈ s.ledger.pendingTransfers i.chain, ∀ now,
      t.confirmDue? i.depth b.height now = none) {failures : Nat}
    {r : Except WorkerError BlockReport}
    (idles : Idles s.ledger lease b ⟨b.height, 0, failures, 0, 0, 0, 0⟩ r) :
    Flow.Surely (Telling answers) (i.blockOnce (.ofBlock lease b) failures [] [])
      (s, told)
      fun a after => a = .ofResult r ∧ after = (s, told) := by
  have unchanged : ∀ now, confirmation i.depth (Batch.ofBlock lease b).target.height now
      (s.ledger.pendingTransfers i.chain) [] = ([], []) := by
    intro now
    have waits : (s.ledger.pendingTransfers i.chain).filterMap
        (·.confirmDue? i.depth (Batch.ofBlock lease b).target.height now) = [] :=
      List.filterMap_eq_nil_iff.2 fun t pending => nothingDue t pending now
    simp [confirmation, waits]
  have noPlan : i.plan [] = pure (.ok Plan.empty) := rfl
  obtain ⟨kept, ended⟩ := idles
  unfold blockOnce
  refine Flow.surely_bind (Flow.surely_ledger alone responsive ?_)
  refine Flow.surely_bind (Flow.surely_now alone responsive fun now => ?_)
  simp only [Ledger.perform]
  rw [unchanged]
  simp only [noPlan, pure_bind]
  -- The batch has its contents as they were: none.
  refine Flow.surely_bind
    (Flow.surely_ledger (c := .commit (.ofBlock lease b)) alone responsive ?_)
  rw [kept]
  simp only [List.length_nil, Plan.empty] at ended ⊢
  rw [show (Batch.ofBlock lease b).target.height = b.height from rfl, ended]
  cases r with
  | ok report => exact Flow.surely_pure ⟨rfl, rfl⟩
  | error e => exact Flow.surely_pure ⟨rfl, rfl⟩

/-- Once its events are read, a remembered block is done and nothing has changed. -/
theorem surely_recordRead (alone : Alone catalog answers)
    (responsive : Responsive answers) {x : Extraction}
    (nothingNew : unknownOf s.ledger x = [])
    (nothingDue : ∀ t ∈ s.ledger.pendingTransfers i.chain, ∀ now,
      t.confirmDue? i.depth b.height now = none)
    {r : Except WorkerError BlockReport}
    (idles : Idles s.ledger lease b ⟨b.height, 0, x.decodeFailures, 0, 0, 0, 0⟩ r) :
    Flow.Surely (Telling answers) (i.recordRead lease b false x) (s, told) fun r' after =>
      r' = r ∧ after = (s, told) := by
  have noEvents : (x.events.filter fun e =>
      !(s.ledger.existingEvents (x.events.map (·.key))).contains e.key) = [] := nothingNew
  have attempts : Flow.Surely (Telling answers)
      (Attempt.upTo (.commitConflict i.chain b.height Attempt.limit)
        (i.blockOnce (.ofBlock lease b) x.decodeFailures [] []) Attempt.limit) (s, told)
      fun r' after => r' = r ∧ after = (s, told) := by
    apply Attempt.surely_upTo 2
    apply (surely_blockOnce alone responsive nothingDue idles).imp
    rintro a after ⟨ended, same⟩
    exact ⟨r, ended, rfl, same⟩
  unfold recordRead
  refine Flow.surely_bind (Flow.surely_ledger alone responsive ?_)
  simp only [Ledger.perform, noEvents]
  refine Flow.surely_bind ?_
  unfold blockTime
  split
  · exact Flow.surely_pure attempts
  · exact Flow.surely_now alone responsive fun _ => attempts

end Ingest

namespace Pursuit

/-- The events that are read from a block of the chain depend on nothing
but its height and hash. -/
def ReadByRef (i : Ingest) (answers : Answering Surroundings)
    (eventsOf : BlockRef → List ChainEvent) : Prop :=
  ∀ b, b.chain = i.chain → ReadAs answers b (eventsOf b.ref)

section Replays

variable {catalog : Catalog} {i : Ingest} {answers : Answering Surroundings}
  {eventsOf : BlockRef → List ChainEvent} {s : Pursuit} {settings : TrackerSettings}
    {b : Block}
  {lease : Lease} {mark : BlockRef}

/-- What a worker remembers, it can record once more, and nothing changes. -/
theorem Remembering.surely_recordRead (alone : Alone catalog answers)
    (responsive : Responsive answers) (remembering : Remembering i answers eventsOf s)
    (isMark : s.ledger.watermark i.chain = some mark) (low : b.height ≤ mark.height)
    (remembered : s.ledger.recordedHash? i.chain b.height = some b.hash)
    (leaseChain : lease.chain = i.chain) (held : s.ledger.holds lease = true)
    {x : Extraction} (events : x.events = eventsOf b.ref) (told : List Notice) :
    Flow.Surely (Telling answers) (i.recordRead lease b false x) (s.surroundings, told)
      fun r after => r = Ingest.replayed mark b x.decodeFailures ∧
        after = (s.surroundings, told) := by
  have recent := remembering.locked.rooted.recent_of_hash remembered
  apply Ingest.surely_recordRead alone responsive
  · exact remembering.known.unknownOf_eq_nil (Or.inl recent) events
  · intro t pending now
    obtain ⟨id, found⟩ := Table.mem_values_iff.1 (List.mem_filter.1 pending).1
    exact remembering.waiting.not_due isMark (UInt64.le_iff_toNat_le.1 low) found now
  · rw [← leaseChain] at isMark remembered
    exact Ingest.idles_of_remembered held isMark low remembered x.decodeFailures

/-- In whatever state a worker is, a block that its ledger remembers at or below
the watermark can be ingested once more.  If its events can be read, that
succeeds, unless the watermark is at the last height; and whatever comes of it,
nothing has changed and nothing is told, and no other error is possible but that
the events could not be read. -/
theorem replay_changes_nothing {entries : List TargetEntry}
    (listed : Catalog.ofEntries entries = .ok catalog) (alone : Alone catalog answers)
    (responsive : Responsive answers) (byRef : ReadByRef i answers eventsOf)
    (run : Run i answers (start i settings) s) (ofChain : b.chain = i.chain)
    (isMark : s.ledger.watermark i.chain = some mark) (low : b.height ≤ mark.height)
    (remembered : s.ledger.recordedHash? i.chain b.height = some b.hash)
    (leaseChain : lease.chain = i.chain) (held : s.ledger.holds lease = true)
    (told : List Notice) :
    (∀ x there, (Ingest.extract b).Leads answers s.surroundings (.ok x) there →
      (i.block lease b false).Leads (Telling answers) (s.surroundings, told)
        (Ingest.replayed mark b x.decodeFailures) (s.surroundings, told)) ∧
    ∀ r after, (i.block lease b false).Leads (Telling answers)
      (s.surroundings, told) r after →
      after = (s.surroundings, told) ∧
        ((∃ failures, r = Ingest.replayed mark b failures) ∨
          ∃ e there, r = .error (.extract e) ∧
            (Ingest.extract b).Leads answers s.surroundings (.error e) there) := by
  have remembering : Remembering i answers eventsOf s :=
    remembering_run (Catalog.consistent_of_ofEntries listed) alone
      (fun b isGiven => byRef b (alone.chain_of_gives isGiven)) run
  have mute := (Ingest.only_extract b).mute
  have records {x there}
    (extracts : (Ingest.extract b).Leads answers s.surroundings (.ok x) there) :=
    remembering.surely_recordRead alone responsive isMark low remembered leaseChain held
      (byRef b ofChain _ _ _ extracts) told
  rw [Ingest.block_eq]
  constructor
  · intro x there extracts
    obtain rfl := (Ingest.runs_extract (extracts.runs alone)).1
    obtain ⟨r, after, leads, rfl, rfl⟩ := (records extracts).exists
    exact Flow.leads_bind.2
      ⟨.ok x, (s.surroundings, told), (Flow.leads_telling_of_mute mute).2 ⟨extracts, rfl⟩,
        leads⟩
  · intro r after leads
    obtain ⟨extraction, ⟨there, told'⟩, extracts, leads⟩ := Flow.leads_bind.1 leads
    obtain ⟨extracts, same⟩ := (Flow.leads_telling_of_mute mute).1 extracts
    obtain rfl : told' = told := same
    obtain rfl : there = s.surroundings := (Ingest.runs_extract (extracts.runs alone)).1
    cases extraction with
    | error e =>
        obtain ⟨rfl, rfl⟩ := leads
        exact ⟨rfl, Or.inr ⟨e, _, rfl, extracts⟩⟩
    | ok x =>
        obtain ⟨rfl, rfl⟩ := (records extracts).reaches r after leads
        exact ⟨rfl, Or.inl ⟨_, rfl⟩⟩

end Replays

/-! ## The payment once more -/

/-- What is read of a block in an archive. -/
def archivedEvents (chain : ChainId) (catalog : Catalog) (archive : Nodes)
    (r : BlockRef) :
    List ChainEvent :=
  (Extraction.ofBlock ⟨chain, r.height, r.hash, "", 0⟩ []
    (if (catalog.watchlist chain).hasAccounts then archive.transactions r.hash else [])
    (catalog.watchlist chain)).events

theorem readByRef_answersFrom {i : Ingest} {catalog : Catalog} {archive : Nodes} :
    ReadByRef i (Surroundings.AnswersFrom catalog archive)
      (archivedEvents i.chain catalog archive) := by
  intro b ofChain s x there extracts
  rw [Surroundings.leads_extract extracts, ofChain, archivedEvents, ← ofChain]
  rfl

/-- Reads the block of the payment. -/
def reading? (s : Pursuit) : Option (Except ProviderError Extraction × Surroundings) :=
  Surroundings.play? Session.sampleCatalog bothBranches Session.homeBranch
    (Ingest.extract paymentBlock) s.surroundings

/-- The block of the payment is remembered below the watermark, the worker holds its
lease, and the block can be read. -/
def canReplay (s : Pursuit) : Bool :=
  s.ledger.watermark ⟨1⟩ == some ⟨4, "0xa4"⟩ &&
    s.ledger.recordedHash? ⟨1⟩ 2 == some "0xa2" && s.ledger.holds Session.sampleLease &&
    s.reading?.any fun (read, _) =>
      match read with
      | .ok x => x.events.length == 1 && x.decodeFailures == 0
      | .error _ => false

/-- After a detour over the other branch, the block of the payment is
ingested once more. -/
theorem replay_changes_nothing_detour : ∃ s, Run Session.sampleIngest sampleAnswers
    (start Session.sampleIngest Session.sampleSettings) s ∧
    s.ledger.watermark ⟨1⟩ = some ⟨4, "0xa4"⟩ ∧
    (∃ x there, (Ingest.extract paymentBlock).Leads sampleAnswers s.surroundings
      (.ok x) there ∧
      x.events.length = 1) ∧
    (Session.sampleIngest.block Session.sampleLease paymentBlock false).Leads
      (Telling sampleAnswers) (s.surroundings, []) (.ok ⟨2, 0, 0, 0, 0, 0, 0⟩)
      (s.surroundings, []) := by
  have played : (play detour).any canReplay = true := by decide +kernel
  obtain ⟨s, run, found⟩ := exists_run_of_play played
  simp only [canReplay, Bool.and_eq_true, beq_iff_eq] at found
  obtain ⟨⟨⟨isMark, remembered⟩, held⟩, readable⟩ := found
  obtain ⟨⟨read, there⟩, reads, found⟩ := (Option.any_eq_true _ _).1 readable
  have extracts := Surroundings.leads_of_play? reads
  cases read with
  | error e => cases found
  | ok x =>
      simp only [Bool.and_eq_true, beq_iff_eq] at found
      have replays :=
        (replay_changes_nothing (b := paymentBlock) Session.listed_sampleCatalog
          Surroundings.alone_answersFrom Surroundings.responsive_answersFrom
          readByRef_answersFrom run rfl isMark (by decide) remembered rfl held
          []).1 x there extracts
      rw [found.2] at replays
      exact ⟨s, run, isMark, ⟨x, there, extracts, found.1⟩, replays⟩

/-- The worker starts at the last block there can be. -/
def toTheEnd : List Act :=
  [.acquire "worker" 10, .restart, .rebase Session.lastNodes Session.lastBlock.height,
    .ground Session.lastNodes Session.sampleLease]

/-- The worker holds its lease, the last block is the watermark and remembered, and to
ingest it once more overflows. -/
def overflowsAgain (s : Pursuit) : Bool :=
  s.ledger.watermark ⟨1⟩ == some Session.lastBlock.ref &&
    s.ledger.recordedHash? ⟨1⟩ Session.lastBlock.height == some Session.lastBlock.hash &&
    s.ledger.holds Session.sampleLease &&
    (Surroundings.play? Session.sampleCatalog Session.lastNodes Session.lastNodes
      (Session.sampleIngest.block Session.sampleLease Session.lastBlock false)
        s.surroundings).any
      fun (r, _) => r matches .error (.ledger .overflow)

/-- It is not true that every remembered block can be ingested once more:  the last
block there can be is refused. -/
theorem replay_may_overflow : ∃ s,
    Run Session.sampleIngest
      (Surroundings.AnswersFrom Session.sampleCatalog Session.lastNodes)
      (start Session.sampleIngest Session.sampleSettings) s ∧
    ∃ b : Block, b.chain = ⟨1⟩ ∧ s.ledger.watermark ⟨1⟩ = some b.ref ∧
      s.ledger.recordedHash? ⟨1⟩ b.height = some b.hash ∧
      s.ledger.holds Session.sampleLease = true ∧ ∃ there,
      (Session.sampleIngest.block Session.sampleLease b false).Leads
        (Surroundings.AnswersFrom Session.sampleCatalog Session.lastNodes) s.surroundings
        (.error (.ledger .overflow)) there := by
  have played :
      ((toTheEnd.foldlM (act Session.sampleIngest Session.sampleCatalog Session.lastNodes)
        (start Session.sampleIngest Session.sampleSettings)).any overflowsAgain) =
      true := by
    decide +kernel
  obtain ⟨s, reached, found⟩ := (Option.any_eq_true _ _).1 played
  simp only [overflowsAgain, Bool.and_eq_true, beq_iff_eq] at found
  obtain ⟨⟨⟨isMark, remembered⟩, held⟩, overflows⟩ := found
  obtain ⟨⟨r, there⟩, plays, refused⟩ := (Option.any_eq_true _ _).1 overflows
  refine ⟨s, run_of_play reached, _, rfl, isMark, remembered, held, there, ?_⟩
  have leads := Surroundings.leads_of_play? plays
  dsimp only at refused
  split at refused
  · exact leads
  · cases refused

end Pursuit

end Paywatch
