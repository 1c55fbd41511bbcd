import Paywatch.Proofs.Ingest.Pursuit
import Paywatch.Proofs.Ingest.Session

/-!
# What a step changes

With the ledger for itself, a worker changes it in few ways:  it ingests the next block,
a base block or the last block once more, or takes back a range.  Everything else leaves
the place of the chain and what is recorded as it is.  Later proofs take a step apart
with `effect_of_step` and never look at its flows again.
-/

namespace Paywatch

/-- Nothing that is recorded changes; identifiers may be given out. -/
structure Uneventful (s after : Surroundings) : Prop where
  records : Ledger.SameRecords s.ledger after.ledger
  grows : s.issued ⊆ after.issued

theorem Uneventful.refl (s : Surroundings) : Uneventful s s :=
  ⟨⟨rfl, rfl, rfl, rfl⟩, fun _ member => member⟩

theorem Uneventful.trans {s there after : Surroundings} (first : Uneventful s there)
    (second : Uneventful there after) : Uneventful s after where
  records :=
    ⟨second.records.events.trans first.records.events,
      second.records.orphans.trans first.records.orphans,
      second.records.transfers.trans first.records.transfers,
      second.records.recorded.trans first.records.recorded⟩
  grows _ member := second.grows (first.grows member)

theorem Quiet.uneventful {s after : Surroundings} (quiet : Quiet s after) :
    Uneventful s after where
  records := by
    rw [quiet.ledger]
    exact ⟨rfl, rfl, rfl, rfl⟩
  grows := quiet.issued

variable {catalog : Catalog} {answers : Answering Surroundings} {i : Ingest}

theorem Alone.uneventful (alone : Alone catalog answers) {α : Type} {x : Flow α} {a : α}
    {s after : Surroundings} (only : x.Only Call.Plain)
    (leads : x.Leads answers s a after) : Uneventful s after := by
  refine only.related Uneventful.refl (fun _ _ _ => Uneventful.trans) ?_ leads
  intro s c reply after plain answer
  have answer := alone _ _ _ _ answer
  cases c with
  | ledger c =>
      obtain ⟨-, rfl⟩ := answer
      refine ⟨Ledger.sameRecords_perform s.ledger ?_, fun _ member => member⟩
      cases c with
      | commit b => exact plain.elim
      | commitPlan writes p => exact plain.elim
      | _ => rfl
  | stamp =>
      obtain ⟨-, rfl⟩ := answer
      exact ⟨⟨rfl, rfl, rfl, rfl⟩, fun _ member => List.mem_cons_of_mem _ member⟩
  | watchlist chain =>
      rw [answer.2]
      exact Uneventful.refl s
  | node chain q =>
      cases q with
      | block height =>
          rw [answer.2]
          exact Uneventful.refl s
      | _ =>
          rw [show after = s from answer]
          exact Uneventful.refl s
  | _ =>
      rw [show after = s from answer]
      exact Uneventful.refl s

/-! ## Blocks -/

/-- A given block was ingested and brought this. -/
structure Entered (i : Ingest) (answers : Answering Surroundings) (b : Block)
    (base : Bool) (lease : Lease) (h : Harvest) (s after : Surroundings) : Prop where
  ingested : h.Ingested i b (Ingest.startOf lease b base) s after
  grows : s.issued ⊆ after.issued
  isGiven : Gives answers i.chain b
  ofChain : b.chain = i.chain
  /-- It brought what was read and was not known yet. -/
  read : ∃ x there, (Ingest.extract b).Leads answers s (.ok x) there ∧
    h.events = Ingest.unknownOf s.ledger x

theorem Ingest.startOf_target (lease : Lease) (b : Block) (base : Bool) :
    (startOf lease b base).target = b.ref := by
  unfold startOf
  split <;> rfl

theorem Ingest.startOf_reverted (lease : Lease) (b : Block) (base : Bool) :
    (startOf lease b base).reverted = none := by
  unfold startOf
  split <;> rfl

/-- A given block is ingested, or all was quiet. -/
theorem Ingest.leads_block_alone (consistent : catalog.Consistent)
    (alone : Alone catalog answers) {lease : Lease} {b : Block} {base : Bool}
    {s after : Surroundings} {r : Except WorkerError BlockReport}
    (isGiven : Gives answers i.chain b)
    (leads : (i.block lease b base).Leads answers s r after) :
    (∃ e, r = .error e) ∧ Quiet s after ∨
      (∃ x, r = .ok x) ∧ ∃ h, Entered i answers b base lease h s after := by
  rw [block_eq] at leads
  obtain ⟨extraction, there, extracts, leads⟩ := Flow.leads_bind.1 leads
  obtain ⟨rfl, read⟩ := runs_extract (extracts.runs alone)
  cases extraction with
  | error e =>
      obtain ⟨rfl, rfl⟩ := leads
      exact Or.inl ⟨⟨_, rfl⟩, Quiet.refl _⟩
  | ok x =>
      obtain ⟨logs, txs, rfl⟩ := read x rfl
      rcases runs_recordRead consistent (leads.runs alone) with
        failed | ⟨done, grows, h, ingested, events⟩
      · exact Or.inl failed
      · exact Or.inr ⟨done, h, ingested, grows, isGiven, alone.chain_of_gives isGiven, _,
          _, extracts, events⟩

namespace Entered

variable {b : Block} {base : Bool} {lease : Lease} {h : Harvest} {s after : Surroundings}
  {taken : List String}

theorem absorbed (entered : Entered i answers b base lease h s after)
    (recorded : s.ledger.Recorded i.chain s.issued taken) :
    Absorbed h i b.height s.ledger after.ledger := by
  have absorbed := entered.ingested.absorbed recorded.toKeyed recorded.isIssued
  rwa [Ingest.startOf_target] at absorbed

theorem recorded (entered : Entered i answers b base lease h s after)
    (recorded : s.ledger.Recorded i.chain s.issued taken) :
    after.ledger.Recorded i.chain after.issued taken :=
  recorded.block entered.ingested (Ingest.startOf_reverted lease b base) entered.ofChain
    entered.grows

/-- A new transfer stems from the block. -/
theorem origin_of_new (entered : Entered i answers b base lease h s after) {u : Transfer}
    (new : u ∈ h.new) : ∃ e ∈ h.events, u.Represents e ∧
      e.origin.blockHeight = b.height ∧ e.origin.blockHash = b.hash := by
  obtain ⟨e, member, represents⟩ := entered.ingested.new.ofEvents u new
  have isOf := entered.ingested.ofBlock e member
  exact ⟨e, member, represents, isOf.height, isOf.hash⟩

/-- What is pending after a block was pending before, or stems from the block. -/
theorem pending (entered : Entered i answers b base lease h s after)
    (recorded : s.ledger.Recorded i.chain s.issued taken) {id : TransferId} {t : Transfer}
    (found : after.ledger.transfers.get? id = some t) (pending : t.status = .pending) :
    s.ledger.transfers.get? id = some t ∨ ∃ origin, t.origin = .blockchain origin ∧
      origin.blockHeight = b.height ∧ origin.blockHash = b.hash := by
  rcases (entered.absorbed recorded).cases id t found with
    ⟨old, -⟩ | ⟨u, -, confirmed⟩ | ⟨u, new, rfl, -⟩
  · exact Or.inl old
  · rw [(Transfer.confirmedAs_of_due confirmed).status] at pending
    cases pending
  · obtain ⟨e, -, represents, height, hash⟩ := entered.origin_of_new new
    have sameOrigin := (getD_confirmDue? i.depth b.height h.now u).2.1
    exact Or.inr ⟨e.origin, sameOrigin.trans represents.origin, height, hash⟩

end Entered

/-- A height up to the end of a range lies outside of it if it does not
lie above the fork. -/
theorem RevertedRange.contains_eq_false_iff {range : RevertedRange} {height : Height}
    (fromFork : range.fromHeight.toNat = range.forkPoint.height.toNat + 1)
    (within : height.toNat ≤ range.toHeight.toNat) :
    range.contains height = false ↔ height.toNat ≤ range.forkPoint.height.toNat := by
  rw [← Bool.not_eq_true, contains, Bool.and_eq_true, decide_eq_true_eq,
    decide_eq_true_eq, UInt64.le_iff_toNat_le, UInt64.le_iff_toNat_le]
  omega

/-! ## Steps -/

namespace Pursuit

/-- The ledger has the block at its height, or the settled window has it. -/
def Remembers (i : Ingest) (s : Pursuit) (r : BlockRef) : Prop :=
  (s.ledger.place i.chain).recent r.height = some r ∨ r ∈ s.settled.window.blocks

/-- What a step did to the ledger, and to what is remembered. -/
inductive Effect (i : Ingest) (answers : Answering Surroundings) (s after : Pursuit) :
    Prop where
  | still (calm : Uneventful s.surroundings after.surroundings)
      (place : after.ledger.place i.chain = s.ledger.place i.chain)
      (carried : after.carried = s.carried)
      (remembers : ∀ r, after.Remembers i r → s.Remembers i r)
  /-- The next block of the tracker. -/
  | next {b : Block} {lease : Lease} {h : Harvest}
      (entered : Entered i answers b false lease h s.surroundings after.surroundings)
      (stands : ∀ mark, (s.ledger.place i.chain).mark = some mark → b.StandsOn mark)
      (place : after.ledger.place i.chain = (s.ledger.place i.chain).moveTo b.ref)
      (carried : after.carried = s.carried)
      (remembers : ∀ r, after.Remembers i r → r = b.ref ∨ s.Remembers i r)
  /-- A base block. -/
  | base {b : Block} {lease : Lease} {h : Harvest}
      (entered : Entered i answers b true lease h s.surroundings after.surroundings)
      (above : ∀ mark, (s.ledger.place i.chain).mark = some mark → mark.height < b.height)
      (place : after.ledger.place i.chain = (s.ledger.place i.chain).moveTo b.ref)
      (carried : after.carried = s.carried ++ s.leftBehind i.chain)
      (remembers : ∀ r, after.Remembers i r → r = b.ref ∨ s.Remembers i r)
  /-- The block at the watermark once more. -/
  | repeated {b : Block} {lease : Lease} {h : Harvest}
      (entered : Entered i answers b false lease h s.surroundings after.surroundings)
      (isMark : (s.ledger.place i.chain).mark = some b.ref)
      (place : after.ledger.place i.chain = s.ledger.place i.chain)
      (carried : after.carried = s.carried)
      (remembers : ∀ r, after.Remembers i r → s.Remembers i r)
  /-- A range that reaches from a block of the window to the watermark at least. -/
  | retreat {range : RevertedRange} {mark : BlockRef}
      (reverted : ∀ taken, s.ledger.Recorded i.chain s.surroundings.issued taken →
        Reverted i.chain range s.ledger after.ledger)
      (grows : s.surroundings.issued ⊆ after.surroundings.issued)
      (rangeChain : range.chain = i.chain)
      (isMark : (s.ledger.place i.chain).mark = some mark)
      (fromFork : range.fromHeight.toNat = range.forkPoint.height.toNat + 1)
      (low : range.forkPoint.height.toNat ≤ mark.height.toNat)
      (reaches : mark.height.toNat ≤ range.toHeight.toNat)
      (fork : s.Remembers i range.forkPoint)
      (place : after.ledger.place i.chain =
        (s.ledger.place i.chain).follow (.reverted range))
      (carried : after.carried = s.carried)
      (remembers : ∀ r, after.Remembers i r → s.Remembers i r ∧
        (r = range.forkPoint ∨ r.height.toNat < range.forkPoint.height.toNat))

variable {s after : Pursuit}

theorem leads_revert_alone (alone : Alone catalog answers) {lease : Lease}
    {range : RevertedRange} {s after : Surroundings} (leaseChain : lease.chain = i.chain)
    (rangeChain : range.chain = i.chain)
    (leads : (i.apply lease (.reverted range)).Leads answers s (.ok ()) after) :
    s.issued ⊆ after.issued ∧ ∀ taken, s.ledger.Recorded i.chain s.issued taken →
      Reverted i.chain range s.ledger after.ledger := by
  obtain ⟨result, there, reverts, same, rfl⟩ := Flow.leads_bind.1 leads
  rcases Ingest.runs_revert (reverts.runs alone) with
    ⟨⟨e, rfl⟩, -⟩ | ⟨-, grows, committed⟩
  · cases same
  · exact ⟨grows, fun taken recorded =>
      reverted_of_commit recorded.toKeyed leaseChain rangeChain committed⟩

/-- An errand with a block enters it. -/
theorem entered_of_errand (consistent : catalog.Consistent)
    (alone : Alone catalog answers) {lease : Lease} {b : Block} {base : Bool}
    {s after : Surroundings} (isGiven : Gives answers i.chain b)
    (leads : Flow.Leads answers (do return (← i.block lease b base).map fun _ => ()) s
      (.ok ()) after) :
    ∃ h, Entered i answers b base lease h s after := by
  obtain ⟨result, there, ingests, same, rfl⟩ := Flow.leads_bind.1 leads
  rcases Ingest.leads_block_alone consistent alone isGiven ingests with
    ⟨⟨e, rfl⟩, -⟩ | ⟨-, entered⟩
  · cases same
  · exact entered

/-- An errand that fails leaves all quiet. -/
theorem quiet_of_errand (consistent : catalog.Consistent) (alone : Alone catalog answers)
    {lease : Lease} {errand : Errand} {e : WorkerError} {s after : Surroundings}
    (leads : (errand.run i lease).Leads answers s (.error e) after) : Quiet s after := by
  cases errand with
  | base b =>
      obtain ⟨result, there, ingests, same, rfl⟩ := Flow.leads_bind.1 leads
      rcases Ingest.runs_block consistent (ingests.runs alone) with
        ⟨-, quiet⟩ | ⟨⟨x, rfl⟩, -⟩
      · exact quiet
      · cases same
  | message m =>
      rcases Ingest.runs_apply consistent (leads.runs alone) with ⟨-, quiet⟩ | ⟨done, -⟩
      · exact quiet
      · cases done

theorem only_resume (i : Ingest) (t : Tracker) (mark : BlockRef) :
    (CatchUp.resume i t mark).Only Call.Plain :=
  Flow.only_bind (Flow.only_ask.2 trivial) fun _ => Flow.only_pure _

/-- Nothing is remembered above the watermark. -/
theorem Locked.remembers_below (locked : Locked i answers s) {r : BlockRef}
    (remembered : s.Remembers i r) : ∃ mark, (s.ledger.place i.chain).mark = some mark ∧
      r.height.toNat ≤ mark.height.toNat := by
  rcases remembered with recent | member
  · exact locked.rooted.below _ r recent
  · by_cases following : s.stance = .following
    · have agree := locked.agree following
      obtain ⟨tip, isTip⟩ : ∃ tip, s.settled.tip? = some tip :=
        Option.isSome_iff_exists.1 (List.getLast?_isSome.2 (List.ne_nil_of_mem member))
      refine ⟨tip, agree.tip.symm.trans isTip, ?_⟩
      rcases agree.consecutive.le_tip isTip member with rfl | lower
      · exact Nat.le_refl _
      · exact Nat.le_of_lt lower
    · rw [(locked.unsettled following).2] at member
      cases member

/-- A place that stays remembers what it did. -/
theorem remembers_of_kept (place : after.ledger.place i.chain = s.ledger.place i.chain)
    (window : ∀ r ∈ after.settled.window.blocks, s.Remembers i r) (r : BlockRef)
    (remembered : after.Remembers i r) : s.Remembers i r := by
  rcases remembered with recent | member
  · rw [place] at recent
    exact Or.inl recent
  · exact window r member

/-- Where the watermark moves on, only its block is remembered anew. -/
theorem remembers_of_moved {target : BlockRef}
    (place : after.ledger.place i.chain = (s.ledger.place i.chain).moveTo target)
    (window : ∀ r ∈ after.settled.window.blocks, r = target ∨ r ∈ s.settled.window.blocks)
    (r : BlockRef) (remembered : after.Remembers i r) : r = target ∨ s.Remembers i r := by
  rcases remembered with recent | member
  · rw [place] at recent
    rcases Place.recent_moveTo recent with ⟨-, same⟩ | ⟨-, old⟩
    · exact Or.inl same
    · exact Or.inr (Or.inl old)
  · exact (window r member).imp_right Or.inr

/-- Where a range is taken back, nothing above its fork is remembered any more. -/
theorem remembers_of_retreat {range : RevertedRange}
    (fromFork : range.fromHeight.toNat = range.forkPoint.height.toNat + 1)
    (fork : s.Remembers i range.forkPoint)
    (place : after.ledger.place i.chain =
      (s.ledger.place i.chain).follow (.reverted range))
    (window : ∀ r ∈ after.settled.window.blocks, r ∈ s.settled.window.blocks ∧
      (r = range.forkPoint ∨ r.height.toNat < range.forkPoint.height.toNat))
    (r : BlockRef) (remembered : after.Remembers i r) : s.Remembers i r ∧
      (r = range.forkPoint ∨ r.height.toNat < range.forkPoint.height.toNat) := by
  rcases remembered with recent | member
  · rw [place] at recent
    rcases Place.recent_moveTo recent with ⟨-, rfl⟩ | ⟨elsewhere, old⟩
    · exact ⟨fork, Or.inl rfl⟩
    · obtain ⟨old, lower⟩ := Place.recent_forget old
      have apart : r.height.toNat ≠ range.forkPoint.height.toNat :=
        fun same => elsewhere (UInt64.toNat_inj.1 same)
      exact ⟨Or.inl old, Or.inr (by omega)⟩
  · exact ⟨Or.inr (window r member).1, (window r member).2⟩

theorem effect_of_step (consistent : catalog.Consistent) (alone : Alone catalog answers)
    (locked : Locked i answers s) (step : Step i answers s after) :
    Effect i answers s after := by
  have placing := alone.placing i.chain
  cases step with
  | restart t sameOrNew =>
      exact .still (Uneventful.refl _) rfl rfl (remembers_of_kept rfl (by rintro r ⟨⟩))
  | resume mark t there idle isMark leads =>
      obtain ⟨kept, -, -, -, stored⟩ := leads_resume placing locked.rooted isMark leads
      exact .still (alone.uneventful (only_resume _ _ _) leads) kept rfl
        (remembers_of_kept kept fun r member => Or.inl (stored r member))
  | rebase height b there idle above leads =>
      have kept := placing.kept (Tracker.only_fetchBlock _ _) leads
      exact .still (alone.uneventful (Tracker.only_fetchBlock _ _) leads) kept rfl
        (remembers_of_kept kept fun r => Or.inr)
  | ground b lease there based leaseChain leads =>
      have basis := locked.basis b based
      have moved := (locked.moved_base placing based leaseChain leads).1
      obtain ⟨h, entered⟩ := entered_of_errand consistent alone basis.isGiven leads
      refine .base entered basis.above moved rfl
        (remembers_of_moved moved fun r member => ?_)
      rw [basis.blocks] at member
      exact Or.inl (List.mem_singleton.1 member)
  | advance target live a there following leads =>
      have kept := placing.kept (Tracker.only_advance _ _ _) leads
      exact .still (alone.uneventful (Tracker.only_advance _ _ _) leads) kept rfl
        (remembers_of_kept kept fun r => Or.inr)
  | apply m rest lease there next leaseChain leads =>
      obtain ⟨following, continues, -⟩ := locked.next next
      obtain ⟨moved, agreeNow⟩ := locked.moved_next placing next leaseChain leads
      have agree := locked.agree following
      cases m with
      | accepted b live =>
          obtain ⟨h, entered⟩ := entered_of_errand consistent alone continues.1 leads
          exact .next entered
            (fun mark isMark => continues.2 mark (agree.tip.trans isMark)) moved
            rfl (remembers_of_moved moved fun r member =>
              (BlockWindow.mem_push member).symm)
      | reverted range =>
          obtain ⟨tip, retreat⟩ := continues
          have rangeChain := retreat.chain.trans (locked.settledChain following)
          obtain ⟨grows, reverted⟩ := leads_revert_alone alone leaseChain rangeChain leads
          have nonempty := retreat.nonempty
          rw [retreat.fromFork, retreat.toTip] at nonempty
          refine .retreat reverted grows rangeChain (agree.tip.symm.trans retreat.isTip)
            retreat.fromFork (by omega) (by rw [retreat.toTip])
              (Or.inr retreat.accepted) moved rfl
            (remembers_of_retreat retreat.fromFork (Or.inr retreat.accepted) moved ?_)
          intro r member
          exact ⟨BlockWindow.mem_truncateAbove member,
            agreeNow.consecutive.le_tip (agreeNow.tip.trans (congrArg Place.mark moved))
              member⟩
      | unavailable attempt retryIn => exact continues.elim
      | halted reason => exact continues.elim
  | again m lease there isLast leaseChain leads =>
      obtain ⟨-, -, -, moved⟩ := locked.moved_again placing isLast leaseChain leads
      have stands := locked.last m isLast
      cases m with
      | accepted b live =>
          obtain ⟨h, entered⟩ := entered_of_errand consistent alone stands.1 leads
          exact .repeated entered stands.2 moved rfl
            (remembers_of_kept moved fun r => Or.inr)
      | reverted range =>
          obtain ⟨rangeChain, isMark, fromFork, nonempty⟩ := stands
          obtain ⟨grows, reverted⟩ := leads_revert_alone alone leaseChain rangeChain leads
          have fork : s.Remembers i range.forkPoint :=
            Or.inl (locked.rooted.marked _ isMark)
          refine .retreat reverted grows rangeChain isMark fromFork (Nat.le_refl _)
            (by omega) fork
            moved rfl (remembers_of_retreat fromFork fork moved fun r member =>
              ⟨member, ?_⟩)
          by_cases following : s.stance = .following
          · have agree := locked.agree following
            exact agree.consecutive.le_tip (agree.tip.trans isMark) member
          · rw [(locked.unsettled following).2] at member
            cases member
      | unavailable attempt retryIn => exact stands.elim
      | halted reason => exact stands.elim
  | fail errand lease e there due leaseChain leads =>
      have quiet := quiet_of_errand consistent alone leads
      have kept : there.ledger.place i.chain = s.ledger.place i.chain := by
        rw [ledger, quiet.ledger]
      exact .still quiet.uneventful kept rfl (remembers_of_kept kept fun r => Or.inr)
  | ask c reply there plain answer =>
      have asks := Flow.leads_ask.2 answer
      have kept := placing.kept (Flow.only_ask.2 plain) asks
      exact .still (alone.uneventful (Flow.only_ask.2 plain) asks) kept rfl
        (remembers_of_kept kept fun r => Or.inr)
  | wait ticks =>
      exact .still ⟨⟨rfl, rfl, rfl, rfl⟩, fun _ member => member⟩ rfl rfl
        (remembers_of_kept rfl fun r => Or.inr)

/-- Events and transfers fit together after every step. -/
theorem Effect.recorded (effect : Effect i answers s after) {taken : List String}
    (recorded : s.ledger.Recorded i.chain s.surroundings.issued taken) :
    ∃ taken', after.ledger.Recorded i.chain after.surroundings.issued taken' := by
  cases effect with
  | still calm =>
      exact ⟨taken, recorded.congr calm.records.events calm.records.orphans
        calm.records.transfers calm.records.recorded calm.grows⟩
  | next entered => exact ⟨taken, entered.recorded recorded⟩
  | base entered => exact ⟨taken, entered.recorded recorded⟩
  | repeated entered => exact ⟨taken, entered.recorded recorded⟩
  | retreat reverted grows rangeChain =>
      have result := recorded.revert rangeChain (reverted taken recorded)
      exact ⟨_, result.congr rfl rfl rfl rfl grows⟩

end Pursuit

end Paywatch
