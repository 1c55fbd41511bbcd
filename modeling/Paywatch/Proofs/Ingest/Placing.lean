import Paywatch.Ingest.CatchUp
import Paywatch.Proofs.Flow.Rules
import Paywatch.Proofs.Ingest.Block
import Paywatch.Proofs.Ledger.Place
import Paywatch.Proofs.Ledger.Settlement

/-!
# Ingesting among others

While a worker ingests a block, other tasks may use the ledger as well, as long as none
of them moves the place of the chain.  Then the block and every retry of its commit are
accepted or refused by the place that the chain had when the block came, and only an
accepted commit moves it.
-/

namespace Paywatch

def WorkerError.isMismatch : WorkerError → Bool
  | ledger e => e.isMismatch
  | _ => false

/-- Calls are answered by a ledger that others may change, but not the
place of the chain. -/
structure Placing (chain : ChainId) (answers : Answering Surroundings) : Prop where
  ledger : ∀ s c reply after, answers s (.ledger c) reply after → ∃ l : Ledger,
    l.place chain = s.ledger.place chain ∧ reply = (l.perform c).1 ∧
      after.ledger.place chain = (l.perform c).2.place chain
  other : ∀ s c reply after, (∀ d, c ≠ .ledger d) → answers s c reply after →
    after.ledger.place chain = s.ledger.place chain
  inPlace : GivesInPlace answers

theorem Ledger.place_perform (l : Ledger) (chain : ChainId) {c : Ledger.Call}
    (plain : Call.Plain (.ledger c)) : (l.perform c).2.place chain = l.place chain := by
  cases c with
  | commit b => exact plain.elim
  | commitPlan writes p => exact plain.elim
  | insertOrder o => rfl
  | insertRoute r => rfl
  | expireOrder id =>
      simp only [perform]
      cases expired : l.expireOrder id with
      | error e => rfl
      | ok result =>
          simp only
          rw [expireOrder_frame expired]
          rfl
  | _ =>
      rw [perform_frame l rfl]
      rfl

/-- Where nobody else changes anything, nobody moves the place. -/
theorem Alone.placing {catalog : Catalog} {answers : Answering Surroundings}
    (alone : Alone catalog answers) (chain : ChainId) : Placing chain answers where
  ledger := by
    intro s c reply after answer
    obtain ⟨rfl, rfl⟩ := alone _ _ _ _ answer
    exact ⟨s.ledger, rfl, rfl, rfl⟩
  other := by
    intro s c reply after aside answer
    have answer := alone _ _ _ _ answer
    cases c with
    | ledger d => exact absurd rfl (aside d)
    | stamp =>
        obtain ⟨-, rfl⟩ := answer
        rfl
    | watchlist chain => rw [answer.2]
    | node chain q =>
        cases q with
        | block height => rw [answer.2]
        | _ => rw [show after = s from answer]
    | _ => rw [show after = s from answer]
  inPlace := alone.givesInPlace

variable {answers : Answering Surroundings} {s after : Surroundings} {i : Ingest}

/-- Only commits move the place. -/
theorem Placing.kept {α : Type} {chain : ChainId} (placing : Placing chain answers)
    {x : Flow α} {a : α} (only : x.Only Call.Plain) (leads : x.Leads answers s a after) :
    after.ledger.place chain = s.ledger.place chain := by
  refine only.kept (fun s => s.ledger.place chain) ?_ leads
  intro s c reply after plain answer
  cases c with
  | ledger c =>
      obtain ⟨l, same, -, moved⟩ := placing.ledger _ _ _ _ answer
      rw [moved, l.place_perform chain plain, same]
  | _ => exact placing.other _ _ _ _ (by simp) answer

/-! ## Flows that commit nothing -/

namespace Ingest

theorem only_plan (i : Ingest) (confirmed : List Transfer) :
    (i.plan confirmed).Only Call.Mute := by
  unfold plan
  split
  · exact Flow.only_pure _
  · refine Flow.only_bind (Flow.only_ask.2 rfl) fun ctx => ?_
    split
    · exact Flow.only_pure _
    · exact Flow.only_bind (Draft.only_stamp _).mute fun _ => Flow.only_pure _

end Ingest

theorem Keeper.only_renewIfDue (k : Keeper) : k.renewIfDue.Only Call.Plain := by
  unfold renewIfDue
  refine Flow.only_bind (Flow.only_ask.2 trivial) fun now => ?_
  split
  · exact Flow.only_pure _
  · refine Flow.only_bind (Flow.only_ask.2 trivial) fun reply => ?_
    split <;> exact Flow.only_pure _

/-! ## Commits and retries -/

section Commits

variable {α : Type} {start : Batch} {p q : Place}

/-- How an attempt to commit a batch like `start` moves the place. -/
def Attempted (start : Batch) (p q : Place) : Attempt WorkerError α → Prop
  | .done _ => p.commit start = .ok q
  | .conflict => q = p
  | .failed e => q = p ∧
      (e.isMismatch = true → ∃ refusal, p.commit start = .error refusal ∧
        refusal.isMismatch = true)

/-- How a flow that commits a batch like `start` in the end moves the place. -/
def Resulted (start : Batch) (p q : Place) : Except WorkerError α → Prop
  | .ok _ => p.commit start = .ok q
  | .error e => q = p ∧
      (e.isMismatch = true → ∃ refusal, p.commit start = .error refusal ∧
        refusal.isMismatch = true)

theorem Attempted.kept {e : WorkerError} (harmless : e.isMismatch = false)
    (same : q = p) :
    Attempted start p q (.failed e : Attempt WorkerError α) :=
  ⟨same, fun mismatch => by rw [harmless] at mismatch; cases mismatch⟩

/-- The contents of the batch do not matter for the place. -/
theorem Placing.leads_commit {chain : ChainId} (placing : Placing chain answers)
    {batch : Batch} {reply : Except LedgerError Unit} {x : α} {a : Attempt WorkerError α}
    (leads : (Flow.ledger (.commit batch)).Leads answers s reply after)
    (ofChain : batch.chain = chain) (alike : ∀ p : Place, p.commit batch = p.commit start)
    (outcome : Attempt.ofCommit WorkerError.ledger x reply = a) :
    Attempted start (s.ledger.place chain) (after.ledger.place chain) a := by
  subst outcome
  obtain ⟨l, same, rfl, moved⟩ := placing.ledger _ _ _ _ (Flow.leads_ask.1 leads)
  subst ofChain
  simp only [Ledger.perform] at moved ⊢
  cases result : l.commit batch with
  | ok l' =>
      rw [result] at moved
      show Place.commit _ _ = _
      rw [moved, ← same, ← alike]
      exact Ledger.place_commit result
  | error e =>
      rw [result] at moved
      simp only [Ledger.attempt, Attempt.ofCommit]
      split
      · exact moved.trans same
      · refine ⟨moved.trans same, fun mismatch => ⟨e, ?_, mismatch⟩⟩
        rw [← same, ← alike]
        exact Ledger.place_mismatch result mismatch

theorem Placing.leads_upTo {chain : ChainId} {exhausted : WorkerError}
    {attempt : Flow (Attempt WorkerError α)} (harmless : exhausted.isMismatch = false)
    (once : ∀ s a after, attempt.Leads answers s a after →
      Attempted start (s.ledger.place chain) (after.ledger.place chain) a)
    {n : Nat} {r : Except WorkerError α}
    (leads : (Attempt.upTo exhausted attempt n).Leads answers s r after) :
    Resulted start (s.ledger.place chain) (after.ledger.place chain) r := by
  induction n generalizing s with
  | zero =>
      obtain ⟨rfl, rfl⟩ := leads
      exact ⟨rfl, fun mismatch => by rw [harmless] at mismatch; cases mismatch⟩
  | succ n ih =>
      rw [Attempt.upTo, Flow.leads_bind] at leads
      obtain ⟨a, there, first, rest⟩ := leads
      have attempted := once _ _ _ first
      cases a with
      | done x =>
          obtain ⟨rfl, rfl⟩ := rest
          exact attempted
      | failed e =>
          obtain ⟨rfl, rfl⟩ := rest
          exact attempted
      | conflict =>
          have result := ih rest
          rwa [show there.ledger.place chain = s.ledger.place chain
            from attempted] at result

end Commits

namespace Ingest

variable {lease : Lease} {b : Block}

theorem leads_blockOnce (placing : Placing i.chain answers) {start : Batch}
    {failures : Nat} {events : List ChainEvent} {new : List Transfer}
    {a : Attempt WorkerError BlockReport} (ofChain : start.chain = i.chain)
    (leads : (i.blockOnce start failures events new).Leads answers s a after) :
    Attempted start (s.ledger.place i.chain) (after.ledger.place i.chain) a := by
  unfold blockOnce at leads
  obtain ⟨stored, s₁, asks, leads⟩ := Flow.leads_bind.1 leads
  have kept := placing.kept (Flow.only_ask.2 (by trivial)) asks
  obtain ⟨now, s₂, asks, leads⟩ := Flow.leads_bind.1 leads
  replace kept := (placing.kept (Flow.only_ask.2 (by trivial)) asks).trans kept
  obtain ⟨planned, s₃, plans, leads⟩ := Flow.leads_bind.1 leads
  replace kept := (placing.kept (only_plan i _).plain plans).trans kept
  cases planned with
  | error e =>
      obtain ⟨rfl, rfl⟩ := leads
      exact Attempted.kept rfl kept
  | ok p =>
      obtain ⟨reply, s₄, commits, leads⟩ := Flow.leads_bind.1 leads
      rw [← kept]
      split at leads
      · rename_i report done
        obtain ⟨_, s₅, announces, rfl, rfl⟩ := Flow.leads_bind.1 leads
        rw [placing.kept (Flow.only_publishAll (fun _ => trivial) _) announces]
        exact placing.leads_commit commits ofChain (fun _ => rfl) done
      · obtain ⟨rfl, rfl⟩ := leads
        exact placing.leads_commit commits ofChain (fun _ => rfl) rfl

theorem leads_block (placing : Placing i.chain answers)
    (leaseChain : lease.chain = i.chain) {base : Bool}
    {r : Except WorkerError BlockReport}
    (leads : (i.block lease b base).Leads answers s r after) :
    Resulted (startOf lease b base) (s.ledger.place i.chain)
      (after.ledger.place i.chain) r := by
  unfold block at leads
  obtain ⟨extraction, s₁, extracts, leads⟩ := Flow.leads_bind.1 leads
  have kept := placing.kept (only_extract b).mute.plain extracts
  cases extraction with
  | error e =>
      obtain ⟨rfl, rfl⟩ := leads
      exact ⟨kept, fun mismatch => by cases mismatch⟩
  | ok x =>
      obtain ⟨known, s₂, asks, leads⟩ := Flow.leads_bind.1 leads
      replace kept := (placing.kept (Flow.only_ask.2 (by trivial)) asks).trans kept
      obtain ⟨time, s₃, times, leads⟩ := Flow.leads_bind.1 leads
      replace kept := (placing.kept (only_blockTime b).mute.plain times).trans kept
      obtain ⟨new, s₄, makes, leads⟩ := Flow.leads_bind.1 leads
      replace kept := (placing.kept (only_transfersOf _ _).mute.plain makes).trans kept
      have ofChain : (startOf lease b base).chain = i.chain := by
        rw [← leaseChain]
        unfold startOf
        split <;> rfl
      rw [← kept]
      exact Placing.leads_upTo rfl (fun _ _ _ => leads_blockOnce placing ofChain) leads

theorem leads_revert (placing : Placing i.chain answers)
    (leaseChain : lease.chain = i.chain) {range : RevertedRange}
    {r : Except WorkerError Nat}
    (leads : (i.revert lease range).Leads answers s r after) :
    Resulted (.ofRevert lease range) (s.ledger.place i.chain)
      (after.ledger.place i.chain) r := by
  refine Placing.leads_upTo rfl (fun s a after leads => ?_) leads
  unfold revertOnce at leads
  obtain ⟨stored, s₁, asks, leads⟩ := Flow.leads_bind.1 leads
  have kept := placing.kept (Flow.only_ask.2 (by trivial)) asks
  obtain ⟨reply, s₂, commits, leads⟩ := Flow.leads_bind.1 leads
  rw [← kept]
  split at leads
  · rename_i n done
    obtain ⟨_, s₃, announces, rfl, rfl⟩ := Flow.leads_bind.1 leads
    rw [placing.kept (Flow.only_publishAll (fun _ => trivial) _) announces]
    exact placing.leads_commit commits leaseChain (fun _ => rfl) done
  · obtain ⟨rfl, rfl⟩ := leads
    exact placing.leads_commit commits leaseChain (fun _ => rfl) rfl

end Ingest

/-- The batch of a message, before its contents. -/
def Message.batch (lease : Lease) : Message → Option Batch
  | accepted b _ => some (.ofBlock lease b)
  | reverted range => some (.ofRevert lease range)
  | _ => none

theorem Ingest.leads_apply (placing : Placing i.chain answers) {lease : Lease}
    (leaseChain : lease.chain = i.chain) {m : Message} {start : Batch}
    (isBatch : m.batch lease = some start) {r : Except WorkerError Unit}
    (leads : (i.apply lease m).Leads answers s r after) :
    Resulted start (s.ledger.place i.chain) (after.ledger.place i.chain) r := by
  cases m with
  | accepted b live =>
      cases isBatch
      obtain ⟨result, there, ingests, rfl, rfl⟩ := Flow.leads_bind.1 leads
      have resulted := leads_block placing leaseChain ingests
      cases result <;> exact resulted
  | reverted range =>
      cases isBatch
      obtain ⟨result, there, reverts, rfl, rfl⟩ := Flow.leads_bind.1 leads
      have resulted := leads_revert placing leaseChain reverts
      cases result <;> exact resulted
  | unavailable attempt retryIn => cases isBatch
  | halted reason => cases isBatch

end Paywatch
