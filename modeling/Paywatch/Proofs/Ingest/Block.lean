import Paywatch.Ingest.Block
import Paywatch.Proofs.Event.Extract
import Paywatch.Proofs.Flow.Rules
import Paywatch.Proofs.Matching.Plan

/-!
# What applying a message commits

An ingestion that runs alone either fails and leaves the ledger as it was, or commits
one batch.  `Ingested` and `revertBatch` say which batch that is.
-/

namespace Paywatch

/-- Nothing but identifiers was used up. -/
structure Quiet (s after : Surroundings) : Prop where
  ledger : after.ledger = s.ledger
  issued : s.issued ⊆ after.issued

theorem Quiet.refl (s : Surroundings) : Quiet s s := ⟨rfl, fun _ member => member⟩

theorem Quiet.trans {s there after : Surroundings} (first : Quiet s there)
    (second : Quiet there after) : Quiet s after :=
  ⟨second.ledger.trans first.ledger, fun _ member => second.issued (first.issued member)⟩

variable {catalog : Catalog} {s after : Surroundings}

/-- An attempt that is repeated while it is quiet either succeeds in the end, from where
it found everything as it was, or all was quiet. -/
theorem Attempt.runs_upTo {ε α : Type} {exhausted : ε} {attempt : Flow (Attempt ε α)}
    (quiet : ∀ s a after, attempt.Runs catalog s a after → (∀ x, a ≠ .done x) →
      Quiet s after)
    {n : Nat} {r : Except ε α}
    (runs : (upTo exhausted attempt n).Runs catalog s r after) :
    (∃ x there, r = .ok x ∧ Quiet s there ∧ attempt.Runs catalog there (.done x) after) ∨
      (∃ e, r = .error e) ∧ Quiet s after := by
  induction n generalizing s with
  | zero =>
      obtain ⟨rfl, rfl⟩ := runs
      exact Or.inr ⟨⟨_, rfl⟩, Quiet.refl _⟩
  | succ n ih =>
      rw [upTo, Flow.runs_bind] at runs
      obtain ⟨a, there, first, rest⟩ := runs
      cases a with
      | done x =>
          obtain ⟨rfl, rfl⟩ := rest
          exact Or.inl ⟨x, s, rfl, Quiet.refl s, first⟩
      | failed e =>
          obtain ⟨rfl, rfl⟩ := rest
          exact Or.inr ⟨⟨e, rfl⟩, quiet _ _ _ first (by simp)⟩
      | conflict =>
          have before := quiet _ _ _ first (by simp)
          rcases ih rest with ⟨x, later, rfl, calm, last⟩ | ⟨failed, calm⟩
          · exact Or.inl ⟨x, later, rfl, before.trans calm, last⟩
          · exact Or.inr ⟨failed, before.trans calm⟩

/-- A change is accepted and made, or refused and left. -/
theorem Attempt.ofCommit_cases {ε α : Type} (wrap : LedgerError → ε) (x : α) (l : Ledger)
    (result : Except LedgerError Ledger) :
    result = .ok (l.attempt result).2 ∧ ofCommit wrap x (l.attempt result).1 = .done x ∨
      (l.attempt result).2 = l ∧ (ofCommit wrap x (l.attempt result).1 = .conflict ∨
        ∃ e, ofCommit wrap x (l.attempt result).1 = .failed e) := by
  cases result with
  | ok l' => exact Or.inl ⟨rfl, rfl⟩
  | error e =>
      refine Or.inr ⟨rfl, ?_⟩
      cases isConflict : e.isConflict with
      | true => exact Or.inl (by simp [ofCommit, Ledger.attempt, isConflict])
      | false => exact Or.inr ⟨wrap e, by simp [ofCommit, Ledger.attempt, isConflict]⟩

/-! ## Flows that use neither the ledger nor the bus -/

theorem DepositDraft.only_stamps {allowed : Call → Prop} (stamps : allowed .stamp)
    (drafts : List DepositDraft) :
    Flow.Only allowed (drafts.mapM fun d => do return d.record (← Flow.ask .stamp)) := by
  induction drafts with
  | nil => exact Flow.only_pure _
  | cons x rest ih =>
      rw [List.mapM_cons]
      refine Flow.only_bind (Flow.only_bind (Flow.only_ask.2 stamps) fun _ =>
        Flow.only_pure _) ?_
      exact fun _ => Flow.only_bind ih fun _ => Flow.only_pure _

/-- Giving deposits their identifiers asks for stamps, and for nothing else. -/
theorem Draft.only_stamps {allowed : Call → Prop} (stamps : allowed .stamp) (d : Draft) :
    d.stamp.Only allowed :=
  Flow.only_bind (DepositDraft.only_stamps stamps d.deposits) fun _ => Flow.only_pure _

theorem DepositDraft.only_record (drafts : List DepositDraft) :
    Flow.Only Call.Outside
      (drafts.mapM fun d => do return d.record (← Flow.ask .stamp)) :=
  only_stamps trivial drafts

theorem Draft.only_stamp (d : Draft) : d.stamp.Only Call.Outside := only_stamps trivial d

namespace Ingest

theorem only_extract (b : Block) : (extract b).Only Call.Outside := by
  unfold extract
  refine Flow.only_bind (Flow.only_ask.2 trivial) fun watchlist => ?_
  extract_lets contracts withLogs
  have last : ∀ logs, (withLogs logs).Only Call.Outside := by
    intro logs
    cases logs with
    | error e => exact Flow.only_pure _
    | ok logs =>
        dsimp -zeta only [withLogs]
        extract_lets withTxs
        have found : ∀ txs, (withTxs txs).Only Call.Outside := by
          intro txs
          cases txs with
          | error e => exact Flow.only_pure _
          | ok txs => exact Flow.only_pure _
        split
        · exact Flow.only_bind (Flow.only_ask.2 trivial) found
        · rw [pure_bind]
          exact found (.ok [])
  split
  · rw [pure_bind]
    exact last (.ok [])
  · exact Flow.only_bind (Flow.only_ask.2 trivial) last

theorem only_blockTime (b : Block) : (blockTime b).Only Call.Outside := by
  unfold blockTime
  split
  · exact Flow.only_pure _
  · exact Flow.only_ask.2 trivial

theorem only_transfersOf (time : Instant) (events : List ChainEvent) :
    (transfersOf time events).Only Call.Outside := by
  induction events with
  | nil => exact Flow.only_pure _
  | cons e rest ih =>
      rw [transfersOf]
      split
      · exact ih
      · refine Flow.only_bind (Flow.only_ask.2 trivial) fun stamp => ?_
        split
        · exact Flow.only_bind ih fun _ => Flow.only_pure _
        · exact ih

end Ingest

/-! ## What the parts of an ingestion give -/

/-- Giving deposits their identifiers leaves the claims as they are. -/
theorem Draft.runs_stamp {d : Draft} {p : Plan} (runs : d.stamp.Runs catalog s p after) :
    Quiet s after ∧ p.claims = d.claims := by
  unfold Draft.stamp at runs
  rw [Flow.runs_bind] at runs
  obtain ⟨deposits, there, stamps, rfl, rfl⟩ := runs
  refine ⟨?_, rfl⟩
  generalize d.deposits = drafts at stamps
  induction drafts generalizing s deposits with
  | nil =>
      rw [List.mapM_nil] at stamps
      obtain ⟨-, rfl⟩ := stamps
      exact Quiet.refl _
  | cons x rest ih =>
      simp only [List.mapM_cons, Flow.runs_bind] at stamps
      obtain ⟨_, _, ⟨stamp, there, asked, rfl, rfl⟩, others, later, stamps, rfl, rfl⟩ :=
        stamps
      obtain ⟨-, rfl⟩ := Flow.runs_ask.1 asked
      have first : Quiet s { s with issued := stamp.ulid :: s.issued } :=
        ⟨rfl, fun _ member => List.mem_cons_of_mem _ member⟩
      exact first.trans (ih others stamps)

/-- The pending transfer of an event. -/
structure Transfer.Represents (t : Transfer) (e : ChainEvent) : Prop where
  origin : t.origin = .blockchain e.origin
  token : t.token = e.token
  pending : t.status = .pending
  unconfirmed : t.confirmation = none

/-- New transfers of events, each with an identifier of its own. -/
structure New (s after : Surroundings) (events : List ChainEvent) (new : List Transfer) :
    Prop where
  ofEvents : ∀ t ∈ new, ∃ e ∈ events, t.Represents e
  ofAll : ∀ e ∈ events, e.legs?.isSome → ∃ t ∈ new, t.Represents e
  distinct : (new.map (·.id)).Nodup
  unissued : ∀ t ∈ new, t.id.ulid ∉ s.issued ∧ t.id.ulid ∈ after.issued

/-- An event that stands for no transfer. -/
theorem New.skip {e : ChainEvent} {rest : List ChainEvent} {new : List Transfer}
    (others : New s after rest new) (still : e.legs? = none) :
    New s after (e :: rest) new where
  ofEvents := by
    intro t member
    obtain ⟨d, among, represents⟩ := others.ofEvents t member
    exact ⟨d, List.mem_cons_of_mem _ among, represents⟩
  ofAll := by
    intro d member moves
    rcases List.mem_cons.1 member with rfl | later
    · rw [still] at moves
      cases moves
    · exact others.ofAll d later moves
  distinct := others.distinct
  unissued := others.unissued

/-- A transfer whose identifier is given out before those of the others. -/
theorem New.cons {e : ChainEvent} {rest : List ChainEvent} {new : List Transfer}
    {t : Transfer} (represents : t.Represents e) (fresh : t.id.ulid ∉ s.issued)
    (issued : t.id.ulid ∈ after.issued)
    (others : New { s with issued := t.id.ulid :: s.issued } after rest new) :
    New s after (e :: rest) (t :: new) where
  ofEvents := by
    intro u member
    rcases List.mem_cons.1 member with rfl | later
    · exact ⟨e, List.mem_cons_self, represents⟩
    · obtain ⟨d, among, represents⟩ := others.ofEvents u later
      exact ⟨d, List.mem_cons_of_mem _ among, represents⟩
  ofAll := by
    intro d member moves
    rcases List.mem_cons.1 member with rfl | later
    · exact ⟨t, List.mem_cons_self, represents⟩
    · obtain ⟨u, among, represents⟩ := others.ofAll d later moves
      exact ⟨u, List.mem_cons_of_mem _ among, represents⟩
  distinct := by
    rw [List.map_cons, List.nodup_cons]
    constructor
    · intro repeated
      obtain ⟨u, among, same⟩ := List.mem_map.1 repeated
      have unissued := (others.unissued u among).1
      rw [same] at unissued
      exact unissued List.mem_cons_self
    · exact others.distinct
  unissued := by
    intro u member
    rcases List.mem_cons.1 member with rfl | later
    · exact ⟨fresh, issued⟩
    · obtain ⟨unissued, issued⟩ := others.unissued u later
      exact ⟨fun old => unissued (List.mem_cons_of_mem _ old), issued⟩

namespace Ingest

variable {i : Ingest} {lease : Lease} {b : Block}

theorem runs_extract {r : Except ProviderError Extraction}
    (runs : (extract b).Runs catalog s r after) :
    after = s ∧ ∀ x, r = .ok x → ∃ logs txs,
      x = Extraction.ofBlock b logs txs (catalog.watchlist b.chain) := by
  unfold extract at runs
  obtain ⟨watchlist, there, asked, runs⟩ := Flow.runs_bind.1 runs
  obtain ⟨rfl, sameThere⟩ := Flow.runs_ask.1 asked
  rw [← sameThere]
  extract_lets contracts withLogs at runs
  have last : ∀ logs {there}, (withLogs logs).Runs catalog there r after →
      after = there ∧ ∀ x, r = .ok x → ∃ logs txs,
        x = Extraction.ofBlock b logs txs (catalog.watchlist b.chain) := by
    intro logs there runs
    cases logs with
    | error e =>
        obtain ⟨rfl, rfl⟩ := runs
        exact ⟨rfl, by simp⟩
    | ok logs =>
        dsimp -zeta only [withLogs] at runs
        extract_lets withTxs at runs
        have found : ∀ txs {there}, (withTxs txs).Runs catalog there r after →
            after = there ∧ ∀ x, r = .ok x → ∃ logs txs,
              x = Extraction.ofBlock b logs txs (catalog.watchlist b.chain) := by
          intro txs there runs
          cases txs with
          | error e =>
              obtain ⟨rfl, rfl⟩ := runs
              exact ⟨rfl, by simp⟩
          | ok txs =>
              obtain ⟨rfl, rfl⟩ := runs
              exact ⟨rfl, fun x ok => ⟨logs, txs, (Except.ok.inj ok).symm⟩⟩
        split at runs
        · obtain ⟨txs, later, asked, rest⟩ := Flow.runs_bind.1 runs
          obtain rfl : later = there := Flow.runs_ask.1 asked
          exact found txs rest
        · rw [pure_bind] at runs
          exact found (.ok []) runs
  split at runs
  · rw [pure_bind] at runs
    exact last (.ok []) runs
  · obtain ⟨logs, later, asked, rest⟩ := Flow.runs_bind.1 runs
    obtain rfl : later = there := Flow.runs_ask.1 asked
    exact last logs rest

theorem runs_blockTime {time : Instant} (runs : (blockTime b).Runs catalog s time after) :
    after = s := by
  unfold blockTime at runs
  split at runs
  · exact runs.2
  · exact Flow.runs_ask.1 runs

theorem represents_of_transfer {e : ChainEvent} {stamp : Stamp} {time : Instant}
    {t : Transfer} (made : e.transfer stamp time = .ok t) :
    t.Represents e ∧ t.id = ⟨stamp.ulid⟩ := by
  unfold ChainEvent.transfer at made
  split at made
  · cases made
    exact ⟨⟨rfl, rfl, rfl, rfl⟩, rfl⟩
  · cases made

theorem runs_transfersOf {time : Instant} {events : List ChainEvent} {new : List Transfer}
    (runs : (transfersOf time events).Runs catalog s new after) :
    Quiet s after ∧ New s after events new := by
  induction events generalizing s new with
  | nil =>
      obtain ⟨rfl, rfl⟩ := runs
      exact ⟨Quiet.refl _, by simp, by simp, by simp, by simp⟩
  | cons e rest ih =>
      rw [transfersOf] at runs
      cases legs : e.legs? with
      | none =>
          rw [legs] at runs
          obtain ⟨quiet, found⟩ := ih runs
          exact ⟨quiet, found.skip legs⟩
      | some legs' =>
          rw [legs] at runs
          simp only [Flow.runs_bind] at runs
          obtain ⟨stamp, there, asked, runs⟩ := runs
          obtain ⟨fresh, rfl⟩ := Flow.runs_ask.1 asked
          have first : Quiet s { s with issued := stamp.ulid :: s.issued } :=
            ⟨rfl, fun _ member => List.mem_cons_of_mem _ member⟩
          obtain ⟨t, made⟩ : ∃ t, e.transfer stamp time = .ok t := by
            simp [ChainEvent.transfer, legs]
          rw [made] at runs
          simp only [Flow.runs_bind] at runs
          obtain ⟨others, there, runs, rfl, rfl⟩ := runs
          obtain ⟨quiet, found⟩ := ih runs
          obtain ⟨represents, identifier⟩ := represents_of_transfer made
          have sameUlid : t.id.ulid = stamp.ulid := by rw [identifier]
          have issued : t.id.ulid ∈ after.issued := by
            rw [sameUlid]
            exact quiet.issued List.mem_cons_self
          rw [← sameUlid] at fresh found
          exact ⟨first.trans quiet, New.cons represents fresh issued found⟩

theorem runs_plan {confirmed : List Transfer} {r : Except ReconcileError Plan}
    (runs : (i.plan confirmed).Runs catalog s r after) :
    Quiet s after ∧ ∀ p, r = .ok p → Claim.check p.claims = .ok () ∧ ∃ keys,
      MatchingRules.Planned i.rules (s.ledger.matchContext i.chain keys) confirmed
        p.claims := by
  unfold plan at runs
  split at runs
  · obtain ⟨rfl, rfl⟩ := runs
    refine ⟨Quiet.refl _, ?_⟩
    intro p ok
    cases ok
    exact ⟨rfl, [], by simp [Plan.empty], by simp [Plan.empty]⟩
  · obtain ⟨ctx, there, asked, runs⟩ := Flow.runs_bind.1 runs
    obtain ⟨rfl, rfl⟩ := Flow.runs_ledger.1 asked
    simp only [Ledger.perform] at runs
    split at runs
    · obtain ⟨rfl, rfl⟩ := runs
      exact ⟨Quiet.refl _, by simp⟩
    · rename_i draft planned
      obtain ⟨p, there, stamps, rfl, rfl⟩ := Flow.runs_bind.1 runs
      obtain ⟨quiet, claims⟩ := Draft.runs_stamp stamps
      refine ⟨quiet, ?_⟩
      intro p' ok
      cases ok
      obtain ⟨checked, settles⟩ := MatchingRules.planned_of_plan planned
      rw [claims]
      refine ⟨checked, _, ?_, settles.covers⟩
      intro c member
      obtain ⟨r, inContext, t, among, pays⟩ := settles.pays c member
      exact ⟨r, inContext, t, (List.mem_filter.1 among).1, pays⟩

end Ingest

/-! ## Blocks -/

/-- What a block brings. -/
structure Harvest where
  events : List ChainEvent
  new : List Transfer
  now : Instant
  claims : List Claim
  deposits : List Deposit

namespace Harvest

/-- The writes that follow from the block at `height`, and the transfers
that it confirms. -/
def confirmation (h : Harvest) (i : Ingest) (height : Height) (l : Ledger) :
    List TransferWrite × List Transfer :=
  Ingest.confirmation i.depth height h.now (l.pendingTransfers i.chain) h.new

/-- The batch of a block. -/
def batch (h : Harvest) (i : Ingest) (start : Batch) (l : Ledger) : Batch :=
  { start with
    events := h.events
    writes := (h.confirmation i start.target.height l).1
    claims := h.claims
    deposits := h.deposits }

/-- A block was ingested and brought this. -/
structure Ingested (h : Harvest) (i : Ingest) (b : Block) (start : Batch)
    (s after : Surroundings) : Prop where
  ofBlock : ∀ e ∈ h.events, e.IsOf b
  keys : (h.events.map (·.key)).Nodup
  unknown : ∀ e ∈ h.events, s.ledger.events.get? e.key = none
  new : New s after h.events h.new
  checked : Claim.check h.claims = .ok ()
  planned : ∃ keys, MatchingRules.Planned i.rules (s.ledger.matchContext i.chain keys)
    (h.confirmation i start.target.height s.ledger).2 h.claims
  committed : s.ledger.commit (h.batch i start s.ledger) = .ok after.ledger

end Harvest

namespace Ingest

variable {i : Ingest} {lease : Lease} {b : Block}

/-- One attempt: it commits what it planned, or nothing. -/
theorem runs_blockOnce {start : Batch} {failures : Nat} {events : List ChainEvent}
    {new : List Transfer} {a : Attempt WorkerError BlockReport}
    (runs : (i.blockOnce start failures events new).Runs catalog s a after) :
    s.issued ⊆ after.issued ∧ ((∀ x, a ≠ .done x) → after.ledger = s.ledger) ∧
      ∀ x, a = .done x → ∃ now claims deposits,
        let h : Harvest := ⟨events, new, now, claims, deposits⟩
        Claim.check claims = .ok () ∧
        (∃ keys, MatchingRules.Planned i.rules (s.ledger.matchContext i.chain keys)
          (h.confirmation i start.target.height s.ledger).2 claims) ∧
        s.ledger.commit (h.batch i start s.ledger) = .ok after.ledger := by
  unfold blockOnce at runs
  obtain ⟨stored, there, asked, runs⟩ := Flow.runs_bind.1 runs
  obtain ⟨rfl, rfl⟩ := Flow.runs_ledger.1 asked
  obtain ⟨now, there, asked, runs⟩ := Flow.runs_bind.1 runs
  obtain rfl : there = s := Flow.runs_ask.1 asked
  simp only [Ledger.perform] at runs
  obtain ⟨planned, later, plans, runs⟩ := Flow.runs_bind.1 runs
  obtain ⟨quiet, settles⟩ := runs_plan plans
  cases planned with
  | error e =>
      obtain ⟨rfl, rfl⟩ := runs
      exact ⟨quiet.issued, fun _ => quiet.ledger, by simp⟩
  | ok p =>
      obtain ⟨checked, planned⟩ := settles p rfl
      obtain ⟨reply, last, asked, runs⟩ := Flow.runs_bind.1 runs
      obtain ⟨rfl, rfl⟩ := Flow.runs_ledger.1 asked
      simp only [Ledger.perform, quiet.ledger] at runs
      generalize result : there.ledger.commit _ = committed at runs
      rcases Attempt.ofCommit_cases WorkerError.ledger _ there.ledger committed with
        ⟨accepted, outcome⟩ | ⟨kept, outcome⟩
      · rw [outcome] at runs
        obtain ⟨_, last, announced, rfl, rfl⟩ := Flow.runs_bind.1 runs
        obtain rfl := Flow.runs_publishAll announced
        refine ⟨quiet.issued, fun refused => absurd rfl (refused _), fun x done => ?_⟩
        exact ⟨now, p.claims, p.deposits, checked, planned, result.trans accepted⟩
      · rcases outcome with outcome | ⟨e, outcome⟩
        all_goals
          rw [outcome] at runs
          obtain ⟨rfl, rfl⟩ := runs
          exact ⟨quiet.issued, fun _ => kept, by simp⟩

theorem blockOnce_calm {start : Batch} {failures : Nat} {events : List ChainEvent}
    {new : List Transfer} {a : Attempt WorkerError BlockReport}
    (runs : (i.blockOnce start failures events new).Runs catalog s a after)
    (refused : ∀ x, a ≠ .done x) : Quiet s after :=
  ⟨(runs_blockOnce runs).2.1 refused, (runs_blockOnce runs).1⟩

/-- The batch of a block, before its contents. -/
def startOf (lease : Lease) (b : Block) (base : Bool) : Batch :=
  if base then Batch.ofBase lease b else Batch.ofBlock lease b

/-- What follows once a block is read. -/
def recordRead (i : Ingest) (lease : Lease) (b : Block) (base : Bool) (x : Extraction) :
    Flow (Except WorkerError BlockReport) := do
  let known ← Flow.ledger (.existingEvents (x.events.map (·.key)))
  let events := x.events.filter fun e => !known.contains e.key
  let new ← transfersOf (← blockTime b) events
  Attempt.upTo (.commitConflict i.chain b.height Attempt.limit)
    (i.blockOnce (startOf lease b base) x.decodeFailures events new) Attempt.limit

theorem block_eq (i : Ingest) (lease : Lease) (b : Block) (base : Bool) :
    i.block lease b base = (do
      match ← extract b with
      | .error e => return .error (.extract e)
      | .ok x => i.recordRead lease b base x) :=
  rfl

/-- The events of a block that the ledger does not know. -/
def unknownOf (l : Ledger) (x : Extraction) : List ChainEvent :=
  x.events.filter fun e => !(l.existingEvents (x.events.map (·.key))).contains e.key

theorem mem_unknownOf {l : Ledger} {x : Extraction} {e : ChainEvent} :
    e ∈ unknownOf l x ↔ e ∈ x.events ∧ l.events.get? e.key = none := by
  refine List.mem_filter.trans (and_congr_right fun among => ?_)
  rw [Bool.not_eq_true', ← Bool.not_eq_true, List.contains_iff_mem, Ledger.existingEvents,
    List.mem_filter, not_and]
  constructor
  · intro unknown
    simpa [Table.contains] using unknown (List.mem_map_of_mem among)
  · intro unknown _
    simp [Table.contains, unknown]

theorem runs_recordRead (consistent : catalog.Consistent) {base : Bool} {logs : List Log}
    {txs : List Tx} {r : Except WorkerError BlockReport}
    (runs : (i.recordRead lease b base
      (Extraction.ofBlock b logs txs (catalog.watchlist b.chain))).Runs catalog
        s r after) :
    (∃ e, r = .error e) ∧ Quiet s after ∨
      (∃ x, r = .ok x) ∧ s.issued ⊆ after.issued ∧
        ∃ h : Harvest, h.Ingested i b (startOf lease b base) s after ∧
          h.events = unknownOf s.ledger
            (Extraction.ofBlock b logs txs (catalog.watchlist b.chain)) := by
  unfold recordRead at runs
  obtain ⟨known, same, asked, runs⟩ := Flow.runs_bind.1 runs
  obtain ⟨rfl, rfl⟩ := Flow.runs_ledger.1 asked
  obtain ⟨time, same, times, runs⟩ := Flow.runs_bind.1 runs
  obtain rfl := runs_blockTime times
  simp only [Ledger.perform] at runs
  obtain ⟨new, later, makes, runs⟩ := Flow.runs_bind.1 runs
  obtain ⟨quiet, found⟩ := runs_transfersOf makes
  rcases Attempt.runs_upTo (fun _ _ _ => blockOnce_calm) runs with
    ⟨x, last, rfl, before, once⟩ | ⟨⟨e, rfl⟩, allQuiet⟩
  · obtain ⟨issued, -, commits⟩ := runs_blockOnce once
    obtain ⟨now, claims, deposits, checked, planned, committed⟩ := commits x rfl
    have sameLedger := (quiet.trans before).ledger
    rw [sameLedger] at planned committed
    refine Or.inr ⟨⟨x, rfl⟩, fun _ member => issued ((quiet.trans before).issued member),
      _, ⟨?_, ?_, ?_, ?_, checked, planned, committed⟩, rfl⟩
    · intro e member
      exact Extraction.isOf_ofBlock consistent logs txs e (mem_unknownOf.1 member).1
    · exact (Extraction.nodup_ofBlock b logs txs _).sublist (List.filter_sublist.map _)
    · intro e member
      exact (mem_unknownOf.1 member).2
    · refine ⟨found.ofEvents, found.ofAll, found.distinct, ?_⟩
      intro t member
      obtain ⟨unissued, isIssued⟩ := found.unissued t member
      exact ⟨unissued, issued (before.issued isIssued)⟩
  · exact Or.inl ⟨⟨e, rfl⟩, quiet.trans allQuiet⟩

theorem runs_block (consistent : catalog.Consistent) {base : Bool}
    {r : Except WorkerError BlockReport}
    (runs : (i.block lease b base).Runs catalog s r after) :
    (∃ e, r = .error e) ∧ Quiet s after ∨
      (∃ x, r = .ok x) ∧ s.issued ⊆ after.issued ∧
        ∃ h : Harvest, h.Ingested i b (startOf lease b base) s after := by
  rw [block_eq] at runs
  obtain ⟨extraction, there, extracts, runs⟩ := Flow.runs_bind.1 runs
  obtain ⟨rfl, read⟩ := runs_extract extracts
  cases extraction with
  | error e =>
      obtain ⟨rfl, rfl⟩ := runs
      exact Or.inl ⟨⟨_, rfl⟩, Quiet.refl _⟩
  | ok extraction =>
      obtain ⟨logs, txs, rfl⟩ := read extraction rfl
      rcases runs_recordRead consistent runs with failed | ⟨done, grows, h, ingested, -⟩
      · exact Or.inl failed
      · exact Or.inr ⟨done, grows, h, ingested⟩

/-! ## Reorganisations -/

/-- What takes back a range. -/
def revertBatch (i : Ingest) (lease : Lease) (range : RevertedRange) (l : Ledger) :
    Batch :=
  let stored := l.transfersInRange i.chain range.fromHeight range.toHeight
  { Batch.ofRevert lease range with
    writes := (stored.filterMap (·.revertIn? range)).map (.update · .pending) }

theorem runs_revertOnce {range : RevertedRange} {a : Attempt WorkerError Nat}
    (runs : (i.revertOnce lease range).Runs catalog s a after) :
    after.issued = s.issued ∧ ((∀ x, a ≠ .done x) → after.ledger = s.ledger) ∧
      ∀ x, a = .done x →
        s.ledger.commit (i.revertBatch lease range s.ledger) = .ok after.ledger := by
  unfold revertOnce at runs
  obtain ⟨stored, there, asked, runs⟩ := Flow.runs_bind.1 runs
  obtain ⟨rfl, rfl⟩ := Flow.runs_ledger.1 asked
  simp only [Ledger.perform] at runs
  obtain ⟨reply, last, asked, runs⟩ := Flow.runs_bind.1 runs
  obtain ⟨rfl, rfl⟩ := Flow.runs_ledger.1 asked
  simp only [Ledger.perform] at runs
  generalize result : s.ledger.commit _ = committed at runs
  rcases Attempt.ofCommit_cases WorkerError.ledger _ s.ledger committed with
    ⟨accepted, outcome⟩ | ⟨kept, outcome⟩
  · rw [outcome] at runs
    obtain ⟨_, last, announced, rfl, rfl⟩ := Flow.runs_bind.1 runs
    obtain rfl := Flow.runs_publishAll announced
    exact ⟨rfl, fun refused => absurd rfl (refused _),
      fun x done => result.trans accepted⟩
  · rcases outcome with outcome | ⟨e, outcome⟩
    all_goals
      rw [outcome] at runs
      obtain ⟨rfl, rfl⟩ := runs
      exact ⟨rfl, fun _ => kept, by simp⟩

theorem runs_revert {range : RevertedRange} {r : Except WorkerError Nat}
    (runs : (i.revert lease range).Runs catalog s r after) :
    (∃ e, r = .error e) ∧ Quiet s after ∨
      (∃ n, r = .ok n) ∧ s.issued ⊆ after.issued ∧
        s.ledger.commit (i.revertBatch lease range s.ledger) = .ok after.ledger := by
  have calm : ∀ s a after, (i.revertOnce lease range).Runs catalog s a after →
      (∀ x, a ≠ .done x) → Quiet s after := by
    intro s a after once refused
    obtain ⟨issued, kept, -⟩ := runs_revertOnce once
    exact ⟨kept refused, fun _ member => by rwa [issued]⟩
  rcases Attempt.runs_upTo calm runs with ⟨n, there, rfl, quiet, once⟩ | ⟨⟨e, rfl⟩, quiet⟩
  · obtain ⟨issued, -, commits⟩ := runs_revertOnce once
    have committed := commits n rfl
    rw [quiet.ledger] at committed
    exact Or.inr
      ⟨⟨n, rfl⟩, fun _ member => by rw [issued]; exact quiet.issued member, committed⟩
  · exact Or.inl ⟨⟨e, rfl⟩, quiet⟩

/-! ## Messages -/

/-- What an applied message did. -/
def Applied (i : Ingest) (lease : Lease) (s after : Surroundings) : Message → Prop
  | .accepted b _ => ∃ h : Harvest, h.Ingested i b (Batch.ofBlock lease b) s after
  | .reverted range =>
      s.ledger.commit (i.revertBatch lease range s.ledger) = .ok after.ledger
  | _ => after.ledger = s.ledger

/-- A message is applied, or fails and leaves the ledger as it was. -/
theorem runs_apply (consistent : catalog.Consistent) {m : Message}
    {r : Except WorkerError Unit} (runs : (i.apply lease m).Runs catalog s r after) :
    (∃ e, r = .error e) ∧ Quiet s after ∨
      r = .ok () ∧ s.issued ⊆ after.issued ∧ i.Applied lease s after m := by
  cases m with
  | accepted b live =>
      obtain ⟨result, there, ingests, rfl, rfl⟩ := Flow.runs_bind.1 runs
      rcases runs_block consistent ingests with
        ⟨⟨e, rfl⟩, quiet⟩ | ⟨⟨x, rfl⟩, grows, h, ingested⟩
      · exact Or.inl ⟨⟨e, rfl⟩, quiet⟩
      · exact Or.inr ⟨rfl, grows, h, ingested⟩
  | reverted range =>
      obtain ⟨result, there, reverts, rfl, rfl⟩ := Flow.runs_bind.1 runs
      rcases runs_revert reverts with ⟨⟨e, rfl⟩, quiet⟩ | ⟨⟨n, rfl⟩, grows, committed⟩
      · exact Or.inl ⟨⟨e, rfl⟩, quiet⟩
      · exact Or.inr ⟨rfl, grows, committed⟩
  | unavailable attempt retryIn =>
      obtain ⟨rfl, rfl⟩ := runs
      exact Or.inr ⟨rfl, fun _ member => member, rfl⟩
  | halted reason =>
      obtain ⟨rfl, rfl⟩ := runs
      exact Or.inr ⟨rfl, fun _ member => member, rfl⟩

end Ingest

end Paywatch
