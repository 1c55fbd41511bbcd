import Paywatch.Proofs.Flow.Conduct
import Paywatch.Proofs.Ingest.Placing

/-!
# What ingestions and settlements commit

Whatever answers its calls, and whoever else uses the ledger meanwhile, a task commits
nothing but batches of one form, each made from what the ledger said just before.  An
attempt that finds another writer faster has asked questions and made a commit that was
refused, so what neither of them changes is as it was when the next attempt begins.
-/

namespace Paywatch

/-! ## Attempts -/

/-- A relation between states that questions and refused commits keep to. -/
structure Idle {σ : Type} (answers : Answering σ) (R : σ → σ → Prop) : Prop where
  refl : ∀ s, R s s
  trans : ∀ s mid after, R s mid → R mid after → R s after
  mute : ∀ s c reply after, c.Mute → answers s c reply after → R s after
  commit : ∀ s batch e after, answers s (.ledger (.commit batch)) (.error e) after →
    R s after
  commitPlan : ∀ s writes plan e after,
    answers s (.ledger (.commitPlan writes plan)) (.error e) after → R s after

/-- Nothing is known of the states. -/
theorem idle_true {σ : Type} (answers : Answering σ) : Idle answers fun _ _ => True :=
  ⟨fun _ => trivial, fun _ _ _ _ _ => trivial, fun _ _ _ _ _ _ => trivial,
    fun _ _ _ _ _ => trivial, fun _ _ _ _ _ _ => trivial⟩

namespace Attempt

variable {ε α : Type} (wrap : LedgerError → ε) (x : α) (ns : List Notice)

/-- An attempt whose commit is refused may be made again, or fails. -/
theorem ofCommit_error (e : LedgerError) :
    ofCommit wrap x (.error e) = .conflict ∨
      ofCommit wrap x (.error e) = .failed (wrap e) := by
  simp only [ofCommit]
  split
  · exact Or.inl rfl
  · exact Or.inr rfl

/-- How an attempt ends: it commits, and announces what was accepted. -/
def conclude (commit : Flow (Except LedgerError Unit)) : Flow (Attempt ε α) := do
  match ofCommit wrap x (← commit) with
  | .done y =>
    Flow.publishAll ns
    return .done y
  | refused => return refused

section Conclude

variable {wrap x ns} {σ : Type} {answers : Answering σ} {s after there : σ} {c : Call}
variable {commit : Flow (Except LedgerError Unit)}

theorem makes_conclude (makes : (conclude wrap x ns commit).Makes answers s c there) :
    commit.Makes answers s c there ∨ c.Plain := by
  unfold conclude at makes
  rcases Flow.makes_bind.1 makes with commits | ⟨reply, mid, -, later⟩
  · exact Or.inl commits
  · refine Or.inr ?_
    split at later
    · have publishes : (Flow.publishAll ns).Only Call.Plain :=
        Flow.only_publishAll (fun _ => trivial) ns
      rcases publishes.makes_bind later with plain | ⟨_, _, -, none⟩
      · exact plain
      · exact none.elim
    · exact later.elim

/-- An attempt ends with a conflict only if its commit was refused. -/
theorem refused_of_conflict
    (leads : (conclude wrap x ns commit).Leads answers s .conflict after) :
    ∃ e, commit.Leads answers s (.error e) after := by
  unfold conclude at leads
  obtain ⟨reply, mid, commits, leads⟩ := Flow.leads_bind.1 leads
  cases reply with
  | ok u =>
      obtain ⟨_, _, -, ended⟩ := Flow.leads_bind.1 leads
      cases ended.1
  | error e =>
      split at leads
      · obtain ⟨_, _, -, ended⟩ := Flow.leads_bind.1 leads
        cases ended.1
      · obtain ⟨-, rfl⟩ := leads
        exact ⟨e, commits⟩

/-- What an attempt comes to is decided by its commit. -/
theorem leads_conclude {result : Attempt ε α}
    (leads : (conclude wrap x ns commit).Leads answers s result after) :
    ∃ reply mid, commit.Leads answers s reply mid ∧
      ((reply = .ok () ∧ result = .done x ∧
        ∃ u, (Flow.publishAll ns).Leads answers mid u after) ∨
        ∃ e, reply = .error e ∧ after = mid ∧ ∀ y, result ≠ .done y) := by
  unfold conclude at leads
  obtain ⟨reply, mid, commits, leads⟩ := Flow.leads_bind.1 leads
  refine ⟨reply, mid, commits, ?_⟩
  cases reply with
  | ok u =>
      obtain ⟨u', _, announces, rfl, rfl⟩ := Flow.leads_bind.1 leads
      exact Or.inl ⟨rfl, rfl, u', announces⟩
  | error e =>
      refine Or.inr ⟨e, rfl, ?_⟩
      rcases ofCommit_error wrap x e with same | same <;>
      · rw [same] at leads
        obtain ⟨rfl, rfl⟩ := leads
        exact ⟨rfl, fun _ => nofun⟩

end Conclude

end Attempt

namespace Idle

variable {σ α ε : Type} {answers : Answering σ} {R : σ → σ → Prop} {s after there : σ}
    {c : Call}

theorem of_mute (idle : Idle answers R) {x : Flow α} {a : α} (only : x.Only Call.Mute)
    (leads : x.Leads answers s a after) : R s after :=
  only.related idle.refl idle.trans idle.mute leads

theorem of_question (idle : Idle answers R) {c : Ledger.Call} {reply : c.Reply}
    (asks : c.asks = true) (leads : (Flow.ledger c).Leads answers s reply after) :
    R s after :=
  idle.mute s (.ledger c) reply after asks (Flow.leads_ask.1 leads)

end Idle

/-- The stamp is given out on the way from one state to another. -/
def Stamped {σ : Type} (answers : Answering σ) (R : σ → σ → Prop) (s after : σ)
    (stamp : Stamp) : Prop :=
  ∃ before since, R s before ∧ answers before .stamp stamp since ∧ R since after

namespace Stamped

variable {σ : Type} {answers : Answering σ} {R : σ → σ → Prop} {s mid after : σ}
    {stamp : Stamp}

theorem here (idle : Idle answers R) (stamped : answers s .stamp stamp mid)
    (later : R mid after) : Stamped answers R s after stamp :=
  ⟨s, mid, idle.refl s, stamped, later⟩

theorem prepend (idle : Idle answers R) (first : R s mid)
    (stamped : Stamped answers R mid after stamp) : Stamped answers R s after stamp := by
  obtain ⟨before, since, earlier, given, later⟩ := stamped
  exact ⟨before, since, idle.trans _ _ _ first earlier, given, later⟩

theorem append (idle : Idle answers R) (stamped : Stamped answers R s mid stamp)
    (last : R mid after) : Stamped answers R s after stamp := by
  obtain ⟨before, since, earlier, given, later⟩ := stamped
  exact ⟨before, since, earlier, given, idle.trans _ _ _ later last⟩

end Stamped

/-! ## Blocks -/

namespace Ingest

variable {i : Ingest} {b : Block}

/-- Reads a block:  how many of its events cannot be decoded, which ones are not
recorded yet, and the transfers of those. -/
def gather (b : Block) :
    Flow (Except ProviderError (Nat × List ChainEvent × List Transfer)) := do
  match ← extract b with
  | .error e => return .error e
  | .ok x =>
    let known ← Flow.ledger (.existingEvents (x.events.map (·.key)))
    let events := x.events.filter fun e => !known.contains e.key
    let new ← transfersOf (← blockTime b) events
    return .ok (x.decodeFailures, events, new)

/-- A block that can be read is extracted from some logs and transactions for the
watchlist that was told. -/
theorem ofBlock_of_extract {σ : Type} {answers : Answering σ} {s after : σ}
    {x : Extraction} (leads : (extract b).Leads answers s (.ok x) after) :
    ∃ logs txs watchlist there, answers s (.watchlist b.chain) watchlist there ∧
      x = Extraction.ofBlock b logs txs watchlist := by
  unfold extract at leads
  obtain ⟨watchlist, s₁, watches, leads⟩ := Flow.leads_bind.1 leads
  extract_lets contracts withLogs at leads
  have last : ∀ logs {s}, (withLogs logs).Leads answers s (.ok x) after →
      ∃ logs txs, x = Extraction.ofBlock b logs txs watchlist := by
    intro logs s leads
    cases logs with
    | error e => cases leads.1
    | ok logs =>
        dsimp -zeta only [withLogs] at leads
        extract_lets withTxs at leads
        have found : ∀ txs {s}, (withTxs txs).Leads answers s (.ok x) after →
            ∃ logs txs, x = Extraction.ofBlock b logs txs watchlist := by
          intro txs s leads
          cases txs with
          | error e => cases leads.1
          | ok txs => exact ⟨logs, txs, Except.ok.inj leads.1⟩
        split at leads
        · obtain ⟨txs, s₂, -, leads⟩ := Flow.leads_bind.1 leads
          exact found txs leads
        · rw [pure_bind] at leads
          exact found (.ok []) leads
  have extracted : ∃ logs txs, x = Extraction.ofBlock b logs txs watchlist := by
    split at leads
    · rw [pure_bind] at leads
      exact last (.ok []) leads
    · obtain ⟨logs, s₂, -, leads⟩ := Flow.leads_bind.1 leads
      exact last logs leads
  obtain ⟨logs, txs, same⟩ := extracted
  exact ⟨logs, txs, watchlist, s₁, Flow.leads_ask.1 watches, same⟩

theorem only_gather (b : Block) : (gather b).Only Call.Mute := by
  unfold gather
  refine Flow.only_bind (only_extract b).mute fun extraction => ?_
  split
  · exact Flow.only_pure _
  · refine Flow.only_bind (Flow.only_ask.2 rfl) fun known => ?_
    refine Flow.only_bind (only_blockTime b).mute fun time => ?_
    exact Flow.only_bind (only_transfersOf _ _).mute fun _ => Flow.only_pure _

/-- What is read of a block are transfers of its events, each made with a
stamp of its own. -/
theorem made_of_gather {σ : Type} {answers : Answering σ} {R : σ → σ → Prop}
    (idle : Idle answers R) {s after : σ} {failures : Nat} {events : List ChainEvent}
    {new : List Transfer}
    (leads : (gather b).Leads answers s (.ok (failures, events, new)) after) :
    ∀ t ∈ new, ∃ e ∈ events, ∃ stamp time, e.transfer stamp time = .ok t ∧
      Stamped answers R s after stamp := by
  have makes :
      ∀ (time : Instant) (events : List ChainEvent) (s after : σ) (new : List Transfer),
      (transfersOf time events).Leads answers s new after →
      ∀ t ∈ new, ∃ e ∈ events, ∃ stamp time, e.transfer stamp time = .ok t ∧
        Stamped answers R s after stamp := by
    intro time events
    induction events with
    | nil =>
        rintro s after _ ⟨rfl, -⟩
        simp
    | cons e rest ih =>
        intro s after new leads
        rw [transfersOf] at leads
        split at leads
        · intro t member
          obtain ⟨d, among, made⟩ := ih _ _ _ leads t member
          exact ⟨d, List.mem_cons_of_mem _ among, made⟩
        · obtain ⟨stamp, there, stamps, leads⟩ := Flow.leads_bind.1 leads
          have given := Flow.leads_ask.1 stamps
          have first := idle.mute _ .stamp _ _ trivial given
          split at leads
          · rename_i t made
            obtain ⟨others, last, later, rfl, rfl⟩ := Flow.leads_bind.1 leads
            refine List.forall_mem_cons.2 ⟨?_, fun u member => ?_⟩
            · exact ⟨e, List.mem_cons_self, stamp, time, made,
                .here idle given (idle.of_mute (only_transfersOf _ _).mute later)⟩
            · obtain ⟨d, among, stamp', time', made', stamped⟩ := ih _ _ _ later u member
              exact ⟨d, List.mem_cons_of_mem _ among, stamp', time', made',
                stamped.prepend idle first⟩
          · intro t member
            obtain ⟨d, among, stamp', time', made, stamped⟩ := ih _ _ _ leads t member
            exact ⟨d, List.mem_cons_of_mem _ among, stamp', time', made,
              stamped.prepend idle first⟩
  unfold gather at leads
  obtain ⟨extraction, s₁, reads, leads⟩ := Flow.leads_bind.1 leads
  cases extraction with
  | error e => cases leads.1
  | ok x =>
      obtain ⟨known, s₂, asks, leads⟩ := Flow.leads_bind.1 leads
      obtain ⟨time, s₃, clock, leads⟩ := Flow.leads_bind.1 leads
      obtain ⟨brought, s₄, stamps, same, rfl⟩ := Flow.leads_bind.1 leads
      cases same
      have first := idle.of_mute (only_extract b).mute reads
      have second := idle.of_question rfl asks
      have third := idle.of_mute (only_blockTime b).mute clock
      have start := idle.trans _ _ _ first (idle.trans _ _ _ second third)
      intro t member
      obtain ⟨e, among, stamp, time, made, stamped⟩ := makes _ _ _ _ _ stamps t member
      exact ⟨e, among, stamp, time, made, stamped.prepend idle start⟩

/-- The events that are read of a block are among those that are extracted for the
watchlist that was told. -/
theorem extracted_of_gather {σ : Type} {answers : Answering σ} {s after : σ}
    {failures : Nat} {events : List ChainEvent} {new : List Transfer}
    (leads : (gather b).Leads answers s (.ok (failures, events, new)) after) :
    ∃ logs txs watchlist there, answers s (.watchlist b.chain) watchlist there ∧
      ∀ e ∈ events, e ∈ (Extraction.ofBlock b logs txs watchlist).events := by
  unfold gather at leads
  obtain ⟨extraction, s₁, reads, leads⟩ := Flow.leads_bind.1 leads
  cases extraction with
  | error e => cases leads.1
  | ok x =>
      obtain ⟨known, s₂, asks, leads⟩ := Flow.leads_bind.1 leads
      obtain ⟨time, s₃, clock, leads⟩ := Flow.leads_bind.1 leads
      obtain ⟨brought, s₄, stamps, same, -⟩ := Flow.leads_bind.1 leads
      cases same
      obtain ⟨logs, txs, watchlist, there, watches, rfl⟩ := ofBlock_of_extract reads
      exact ⟨logs, txs, watchlist, there, watches,
        fun e member => (List.mem_filter.1 member).1⟩

/-- The events that are read of a block are on its chain. -/
theorem chain_of_gather {σ : Type} {answers : Answering σ} {s after : σ} {failures : Nat}
    {events : List ChainEvent} {new : List Transfer}
    (leads : (gather b).Leads answers s (.ok (failures, events, new)) after) :
    ∀ e ∈ events, e.chain = b.chain := by
  obtain ⟨logs, txs, watchlist, -, -, among⟩ := extracted_of_gather leads
  exact fun e member => Extraction.chain_of_ofBlock logs txs watchlist e (among e member)

/-- Where watchlists are those of consistent catalogs, the events that are read of
a block belong to it. -/
theorem isOf_of_gather {σ : Type} {answers : Answering σ} {s after : σ} {failures : Nat}
    {events : List ChainEvent} {new : List Transfer}
    (described : ∀ s chain w after, answers s (.watchlist chain) w after →
      ∃ c : Catalog, c.Consistent ∧ w = c.watchlist chain)
    (leads : (gather b).Leads answers s (.ok (failures, events, new)) after) :
    ∀ e ∈ events, e.IsOf b := by
  obtain ⟨logs, txs, watchlist, there, watches, among⟩ := extracted_of_gather leads
  obtain ⟨c, consistent, rfl⟩ := described _ _ _ _ watches
  exact fun e member => Extraction.isOf_ofBlock consistent logs txs e (among e member)

theorem represents_of_gather {σ : Type} {answers : Answering σ} {s after : σ}
    {failures : Nat} {events : List ChainEvent} {new : List Transfer}
    (leads : (gather b).Leads answers s (.ok (failures, events, new)) after) :
    ∀ t ∈ new, ∃ e ∈ events, t.Represents e := by
  intro t member
  obtain ⟨e, among, _, _, made, -⟩ := made_of_gather (idle_true answers) leads t member
  exact ⟨e, among, (represents_of_transfer made).1⟩

/-- The writes of a block replace what becomes confirmed, and insert what
is new as it then is. -/
theorem mem_confirmation_writes {depth : UInt64} {height : Height} {now : Instant}
    {stored new : List Transfer} {w : TransferWrite}
    (member : w ∈ (confirmation depth height now stored new).1) :
    (∃ u ∈ stored, ∃ t, u.confirmDue? depth height now = some t ∧
      w = .update t .pending) ∨
      ∃ u ∈ new, w = .insert ((u.confirmDue? depth height now).getD u) := by
  rcases List.mem_append.1 member with updated | inserted
  · obtain ⟨t, due, rfl⟩ := List.mem_map.1 updated
    obtain ⟨u, among, confirmed⟩ := List.mem_filterMap.1 due
    exact Or.inl ⟨u, among, t, confirmed, rfl⟩
  · obtain ⟨t, fresh, rfl⟩ := List.mem_map.1 inserted
    obtain ⟨u, among, rfl⟩ := List.mem_map.1 fresh
    exact Or.inr ⟨u, among, rfl⟩

/-- Giving deposits their identifiers leaves the claims as they are, and each deposit is
one of the draft with a stamp of its own. -/
theorem stamped_of_draft {σ : Type} {answers : Answering σ} {R : σ → σ → Prop}
    (idle : Idle answers R) {s after : σ} {d : Draft} {plan : Plan}
    (leads : d.stamp.Leads answers s plan after) :
    plan.claims = d.claims ∧ ∀ x ∈ plan.deposits, ∃ y ∈ d.deposits, ∃ stamp,
      x = y.record stamp ∧
      Stamped answers R s after stamp := by
  unfold Draft.stamp at leads
  obtain ⟨deposits, last, records, rfl, rfl⟩ := Flow.leads_bind.1 leads
  refine ⟨rfl, ?_⟩
  clear leads
  generalize d.deposits = drafts at records
  induction drafts generalizing s deposits with
  | nil =>
      rw [List.mapM_nil] at records
      obtain ⟨rfl, -⟩ := records
      simp
  | cons y rest ih =>
      rw [List.mapM_cons] at records
      obtain ⟨z, s₁, record, records⟩ := Flow.leads_bind.1 records
      obtain ⟨stamp, s₂, stamps, rfl, rfl⟩ := Flow.leads_bind.1 record
      obtain ⟨others, s₃, later, rfl, rfl⟩ := Flow.leads_bind.1 records
      have given := Flow.leads_ask.1 stamps
      have first := idle.mute _ .stamp _ _ trivial given
      refine List.forall_mem_cons.2 ⟨?_, fun x member => ?_⟩
      · exact ⟨y, List.mem_cons_self, stamp, rfl,
          .here idle given (idle.of_mute (DepositDraft.only_record rest).mute later)⟩
      · obtain ⟨y', among, stamp', same, stamped⟩ := ih _ later x member
        exact ⟨y', List.mem_cons_of_mem _ among, stamp', same, stamped.prepend idle first⟩

/-- A plan is empty, or made of a context that was told on the way. -/
theorem drafted_of_plan {σ : Type} {answers : Answering σ} {s after : σ} {i : Ingest}
    {confirmed : List Transfer} {plan : Plan}
    (leads : (i.plan confirmed).Leads answers s (.ok plan) after) :
    plan = .empty ∨ ∃ ctx told draft,
      answers s (.ledger (.matchContext i.chain (MatchKey.ofTransfers confirmed))) ctx
        told ∧
      i.rules.plan ctx confirmed = .ok draft ∧
        draft.stamp.Leads answers told plan after := by
  unfold Ingest.plan at leads
  split at leads
  · exact Or.inl (Except.ok.inj leads.1)
  · obtain ⟨ctx, told, asks, leads⟩ := Flow.leads_bind.1 leads
    split at leads
    · cases leads.1
    · rename_i draft drafted
      obtain ⟨stamped, last, stamps, same, rfl⟩ := Flow.leads_bind.1 leads
      cases same
      exact Or.inr ⟨ctx, told, draft, Flow.leads_ask.1 asks, drafted, stamps⟩

/-- A block is read, and then what it brought is committed. -/
theorem block_eq_gather (i : Ingest) (lease : Lease) (b : Block) (base : Bool) :
    i.block lease b base = (do
      match ← gather b with
      | .error e => return .error (.extract e)
      | .ok (failures, events, new) =>
        Attempt.upTo (.commitConflict i.chain b.height Attempt.limit)
          (i.blockOnce (startOf lease b base) failures events new) Attempt.limit) := by
  rw [block_eq, gather]
  simp only [bind_assoc]
  congr 1
  funext extraction
  cases extraction with
  | error e => rfl
  | ok x => simp only [recordRead, bind_assoc, pure_bind]

/-- A batch that the ingestion of a block comes to commit, and how:  the block was read,
an attempt began, the pending transfers were told, and the plan was made. -/
structure Proposal {σ : Type} (answers : Answering σ) (R : σ → σ → Prop) (i : Ingest)
    (start : Batch) (b : Block) (s there : σ) where
  failures : Nat
  events : List ChainEvent
  new : List Transfer
  stored : List Transfer
  now : Instant
  plan : Plan
  read : σ
  asking : σ
  told : σ
  planning : σ
  reads : (gather b).Leads answers s (.ok (failures, events, new)) read
  waits : R read asking
  pending : answers asking (.ledger (.pendingTransfers i.chain)) stored told
  clock : answers told .now now planning
  plans : (i.plan (confirmation i.depth start.target.height now stored new).2).Leads
    answers planning (.ok plan) there

namespace Proposal

variable {σ : Type} {answers : Answering σ} {R : σ → σ → Prop} {start : Batch}
    {s there : σ}

/-- The writes of the batch, and the transfers that they confirm. -/
def confirmation (p : Proposal answers R i start b s there) :
    List TransferWrite × List Transfer :=
  Ingest.confirmation i.depth start.target.height p.now p.stored p.new

def batch (p : Proposal answers R i start b s there) : Batch :=
  { start with
    events := p.events
    writes := p.confirmation.1
    claims := p.plan.claims
    deposits := p.plan.deposits }

end Proposal

/-- A batch that a reorganisation comes to commit, and how:  an attempt began, and the
transfers of the range were told. -/
structure Reversal {σ : Type} (answers : Answering σ) (R : σ → σ → Prop) (i : Ingest)
    (range : RevertedRange) (s there : σ) where
  stored : List Transfer
  asking : σ
  waits : R s asking
  told : answers asking
    (.ledger (.transfersInRange i.chain range.fromHeight range.toHeight)) stored there

/-- The batch of a reorganisation. -/
def Reversal.batch {σ : Type} {answers : Answering σ} {R : σ → σ → Prop}
    {range : RevertedRange} {s there : σ} (p : Reversal answers R i range s there)
    (lease : Lease) : Batch :=
  { Batch.ofRevert lease range with
    writes := (p.stored.filterMap (·.revertIn? range)).map (.update · .pending) }

section Inversion

variable {σ : Type} {answers : Answering σ} {R : σ → σ → Prop} {s after there : σ}
    {c : Call}
variable {lease : Lease} {start : Batch} {failures : Nat} {events : List ChainEvent}
variable {new : List Transfer} {base : Bool} {range : RevertedRange}

/-- An attempt ends with its commit. -/
theorem blockOnce_eq (i : Ingest) (start : Batch) (failures : Nat)
    (events : List ChainEvent) (new : List Transfer) :
    i.blockOnce start failures events new = (do
      let stored ← Flow.ledger (.pendingTransfers i.chain)
      let now ← Flow.ask .now
      let proposed := confirmation i.depth start.target.height now stored new
      match ← i.plan proposed.2 with
      | .error e => return .failed (.reconcile e)
      | .ok plan =>
        Attempt.conclude WorkerError.ledger
          ⟨start.target.height, events.length, failures, new.length, proposed.2.length,
            plan.claims.length, plan.deposits.length⟩
          plan.notices
          (Flow.ledger (.commit { start with
            events
            writes := proposed.1
            claims := plan.claims
            deposits := plan.deposits }))) := by
  refine bind_congr fun stored => bind_congr fun now => bind_congr fun planned => ?_
  cases planned with
  | error e => rfl
  | ok plan =>
      refine bind_congr fun reply => ?_
      rcases reply with e | u
      · cases e <;> rfl
      · rfl

theorem revertOnce_eq (i : Ingest) (lease : Lease) (range : RevertedRange) :
    i.revertOnce lease range = (do
      let stored ← Flow.ledger (.transfersInRange i.chain range.fromHeight range.toHeight)
      let reverted := stored.filterMap (·.revertIn? range)
      Attempt.conclude WorkerError.ledger reverted.length
        [.blocksReverted i.chain range.fromHeight range.toHeight]
        (Flow.ledger (.commit
          { Batch.ofRevert lease range with
            writes := reverted.map (.update · .pending) }))) := by
  refine bind_congr fun stored => bind_congr fun reply => ?_
  rcases reply with e | u
  · cases e <;> rfl
  · rfl

/-- An attempt that finds a conflict leaves things as questions and a
refused commit do. -/
theorem idle_blockOnce (idle : Idle answers R)
    (leads : (i.blockOnce start failures events new).Leads answers s .conflict after) :
    R s after := by
  rw [blockOnce_eq] at leads
  obtain ⟨stored, s₁, asks, leads⟩ := Flow.leads_bind.1 leads
  obtain ⟨now, s₂, clock, leads⟩ := Flow.leads_bind.1 leads
  obtain ⟨planned, s₃, plans, leads⟩ := Flow.leads_bind.1 leads
  have first := idle.of_question rfl asks
  have second := idle.mute _ .now _ _ trivial (Flow.leads_ask.1 clock)
  have third := idle.of_mute (only_plan i _) plans
  cases planned with
  | error e => cases leads.1
  | ok plan =>
      obtain ⟨e, commits⟩ := Attempt.refused_of_conflict leads
      have last := idle.commit _ _ _ _ (Flow.leads_ask.1 commits)
      exact idle.trans _ _ _ first (idle.trans _ _ _ second (idle.trans _ _ _ third last))

theorem idle_revertOnce (idle : Idle answers R)
    (leads : (i.revertOnce lease range).Leads answers s .conflict after) : R s after := by
  rw [revertOnce_eq] at leads
  obtain ⟨stored, s₁, asks, leads⟩ := Flow.leads_bind.1 leads
  obtain ⟨e, commits⟩ := Attempt.refused_of_conflict leads
  exact idle.trans _ _ _ (idle.of_question rfl asks)
    (idle.commit _ _ _ _ (Flow.leads_ask.1 commits))

/-- Whatever the ingestion of a block commits is a batch that it has proposed. -/
theorem makes_block (idle : Idle answers R)
    (makes : (i.block lease b base).Makes answers s c there) :
    c.Plain ∨ ∃ p : Proposal answers R i (startOf lease b base) b s there,
      c = .ledger (.commit p.batch) := by
  rw [block_eq_gather] at makes
  rcases (only_gather b).plain.makes_bind makes with
    plain | ⟨gathered, read, reads, makes⟩
  · exact Or.inl plain
  cases gathered with
  | error e => exact makes.elim
  | ok brought =>
      obtain ⟨failures, events, new⟩ := brought
      obtain ⟨asking, retries, makes⟩ := Attempt.makes_upTo makes
      have waits := retries.related idle.refl idle.trans fun _ _ => idle_blockOnce idle
      rw [blockOnce_eq] at makes
      rcases Flow.makes_bind.1 makes with asks | ⟨stored, told, pending, makes⟩
      · rw [Flow.ledger, Flow.makes_ask] at asks
        exact Or.inl (asks.1 ▸ trivial)
      rcases Flow.makes_bind.1 makes with asks | ⟨now, planning, clock, makes⟩
      · rw [Flow.makes_ask] at asks
        exact Or.inl (asks.1 ▸ trivial)
      rcases (only_plan i _).plain.makes_bind makes with
        plain | ⟨planned, last, plans, makes⟩
      · exact Or.inl plain
      cases planned with
      | error e => exact makes.elim
      | ok plan =>
          rcases Attempt.makes_conclude makes with commits | plain
          · rw [Flow.ledger, Flow.makes_ask] at commits
            obtain ⟨rfl, rfl⟩ := commits
            exact Or.inr
              ⟨⟨failures, events, new, stored, now, plan, read, asking, told, planning,
              reads, waits, Flow.leads_ask.1 pending, Flow.leads_ask.1 clock, plans⟩, rfl⟩
          · exact Or.inl plain

/-- Whatever a reorganisation commits is a batch made of what it was told. -/
theorem makes_revert (idle : Idle answers R)
    (makes : (i.revert lease range).Makes answers s c there) :
    c.Plain ∨ ∃ p : Reversal answers R i range s there,
      c = .ledger (.commit (p.batch lease)) := by
  obtain ⟨asking, retries, makes⟩ := Attempt.makes_upTo makes
  have waits := retries.related idle.refl idle.trans fun _ _ => idle_revertOnce idle
  rw [revertOnce_eq] at makes
  rcases Flow.makes_bind.1 makes with asks | ⟨stored, mid, told, makes⟩
  · rw [Flow.ledger, Flow.makes_ask] at asks
    exact Or.inl (asks.1 ▸ trivial)
  rcases Attempt.makes_conclude makes with commits | plain
  · rw [Flow.ledger, Flow.makes_ask] at commits
    obtain ⟨rfl, rfl⟩ := commits
    exact Or.inr ⟨⟨stored, asking, waits, Flow.leads_ask.1 told⟩, rfl⟩
  · exact Or.inl plain

end Inversion

end Ingest

/-! ## Settlements -/

namespace MatchingRules

variable {σ : Type} {answers : Answering σ} {R : σ → σ → Prop} {s after there : σ}
    {c : Call}
variable {rules : MatchingRules} {chain : ChainId} {new stored : List Transfer}

/-- A settlement ends with its commit. -/
theorem settleOnce_eq (rules : MatchingRules) (chain : ChainId)
    (new stored : List Transfer) :
    rules.settleOnce chain new stored = (do
      let ctx ← Flow.ledger (.matchContext chain (MatchKey.ofTransfers (new ++ stored)))
      match rules.plan ctx (new ++ stored) with
      | .error e => return .failed (.reconcile e)
      | .ok draft =>
        let plan ← (draft.withoutDepositsOf stored).stamp
        Attempt.conclude SettleError.ledger plan plan.notices
          (Flow.ledger (.commitPlan (new.map .insert) plan))) := by
  refine bind_congr fun ctx => ?_
  cases rules.plan ctx (new ++ stored) with
  | error e => rfl
  | ok draft =>
      refine bind_congr fun plan => bind_congr fun reply => ?_
      rcases reply with e | u
      · cases e <;> rfl
      · rfl

theorem idle_settleOnce (idle : Idle answers R)
    (leads : (rules.settleOnce chain new stored).Leads answers s .conflict after) :
    R s after := by
  rw [settleOnce_eq] at leads
  obtain ⟨ctx, s₁, asks, leads⟩ := Flow.leads_bind.1 leads
  split at leads
  · cases leads.1
  · obtain ⟨plan, s₂, stamps, leads⟩ := Flow.leads_bind.1 leads
    obtain ⟨e, commits⟩ := Attempt.refused_of_conflict leads
    have first := idle.of_question rfl asks
    have second := idle.of_mute (Draft.only_stamp _).mute stamps
    have last := idle.commitPlan _ _ _ _ _ (Flow.leads_ask.1 commits)
    exact idle.trans _ _ _ first (idle.trans _ _ _ second last)

/-- An attempt to settle commits one plan, or leaves things as questions
and a refused commit do. -/
theorem leads_settleOnce (idle : Idle answers R)
    (publish : ∀ s n reply after, answers s (.publish n) reply after → R s after)
    {result : Attempt SettleError Plan}
    (leads : (rules.settleOnce chain new stored).Leads answers s result after) :
    ((∀ plan, result ≠ .done plan) ∧ R s after) ∨
      ∃ plan before since, result = .done plan ∧ R s before ∧
        answers before (.ledger (.commitPlan (new.map .insert) plan)) (.ok ()) since ∧
        R since after := by
  rw [settleOnce_eq] at leads
  obtain ⟨ctx, s₁, asks, leads⟩ := Flow.leads_bind.1 leads
  have first := idle.of_question rfl asks
  split at leads
  · obtain ⟨rfl, rfl⟩ := leads
    exact Or.inl ⟨fun _ => nofun, first⟩
  · obtain ⟨plan, s₂, stamps, leads⟩ := Flow.leads_bind.1 leads
    have second := idle.trans _ _ _ first (idle.of_mute (Draft.only_stamp _).mute stamps)
    obtain ⟨reply, s₃, commits, ended⟩ := Attempt.leads_conclude leads
    rcases ended with ⟨rfl, rfl, u, announces⟩ | ⟨e, rfl, rfl, refused⟩
    · have publishes : (Flow.publishAll plan.notices).Only fun c => ∃ n, c = .publish n :=
        Flow.only_publishAll (fun n => ⟨n, rfl⟩) plan.notices
      have announced : R s₃ after := by
        refine publishes.related idle.refl idle.trans ?_ announces
        rintro s c reply after ⟨n, rfl⟩ answer
        exact publish s n reply after answer
      exact Or.inr ⟨plan, s₂, s₃, rfl, second, Flow.leads_ask.1 commits, announced⟩
    · have last := idle.commitPlan _ _ _ _ _ (Flow.leads_ask.1 commits)
      exact Or.inl ⟨refused, idle.trans _ _ _ second last⟩

/-- A settlement commits one plan, or fails and leaves things as questions
and refused commits do. -/
theorem leads_settle (idle : Idle answers R)
    (publish : ∀ s n reply after, answers s (.publish n) reply after → R s after)
    {result : Except SettleError Plan}
    (leads : (rules.settle chain new stored).Leads answers s result after) :
    ((∃ e, result = .error e) ∧ R s after) ∨
      ∃ plan before since, result = .ok plan ∧ R s before ∧
        answers before (.ledger (.commitPlan (new.map .insert) plan)) (.ok ()) since ∧
        R since after := by
  have waits :
      ∀ {last}, Attempt.Retries answers (rules.settleOnce chain new stored) s last →
      R s last :=
    fun retries => retries.related idle.refl idle.trans fun _ _ => idle_settleOnce idle
  rcases Attempt.leads_upTo leads with
    ⟨retries, rfl⟩ | ⟨last, retries, ⟨plan, ended, rfl⟩ | ⟨e, ended, rfl⟩⟩
  · exact Or.inl ⟨⟨_, rfl⟩, waits retries⟩
  · rcases leads_settleOnce idle publish ended with
      ⟨undone, -⟩ | ⟨plan', before, since, same, first, rest⟩
    · exact absurd rfl (undone plan)
    · cases same
      exact Or.inr ⟨plan, before, since, rfl, idle.trans _ _ _ (waits retries) first,
        rest⟩
  · rcases leads_settleOnce idle publish ended with ⟨-, kept⟩ | ⟨plan, _, _, same, _⟩
    · exact Or.inl ⟨⟨e, rfl⟩, idle.trans _ _ _ (waits retries) kept⟩
    · cases same

/-- Whatever a settlement commits inserts all its new transfers and nothing else. -/
theorem makes_settle (idle : Idle answers R)
    (makes : (rules.settle chain new stored).Makes answers s c there) :
    c.Plain ∨ R s there ∧ ∃ plan, c = .ledger (.commitPlan (new.map .insert) plan) := by
  obtain ⟨asking, retries, makes⟩ := Attempt.makes_upTo makes
  have waits := retries.related idle.refl idle.trans fun _ _ => idle_settleOnce idle
  rw [settleOnce_eq] at makes
  rcases Flow.makes_bind.1 makes with asks | ⟨ctx, told, asks, makes⟩
  · rw [Flow.ledger, Flow.makes_ask] at asks
    exact Or.inl (asks.1 ▸ trivial)
  split at makes
  · exact makes.elim
  · rcases (Draft.only_stamp _).mute.plain.makes_bind makes with
      plain | ⟨plan, last, stamps, makes⟩
    · exact Or.inl plain
    rcases Attempt.makes_conclude makes with commits | plain
    · rw [Flow.ledger, Flow.makes_ask] at commits
      obtain ⟨rfl, rfl⟩ := commits
      have first := idle.trans _ _ _ waits (idle.of_question rfl asks)
      exact Or.inr
        ⟨idle.trans _ _ _ first (idle.of_mute (Draft.only_stamp _).mute stamps), plan,
          rfl⟩
    · exact Or.inl plain

end MatchingRules

end Paywatch
