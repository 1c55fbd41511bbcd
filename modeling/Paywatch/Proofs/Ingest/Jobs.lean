import Paywatch.Proofs.Ingest.Pursuit
import Paywatch.Proofs.Ledger.Level
import Paywatch.Proofs.Transfer.Lifecycle

/-!
# What jobs commit

The pipeline of a chain is given jobs, each to ingest a block or to take a range
back, and it commits for each what it sees:  where its chain stands, and the
transfers that wait on it.  Clerks commit new transfers of no block.  What happens
between a question and the commit that is made of its answer does not matter, as long
as nobody changes what the pipeline sees.
-/

namespace Paywatch

/-! ## What a pipeline sees -/

/-- How the calls of a chain's pipeline are answered.  As long as it commits nothing,
its view stays as it is. -/
def Seeing (chain : ChainId) : Answering View
  | v, .ledger (.pendingTransfers c), ts, after =>
      (c = chain → ∀ t ∈ ts, v.waiting t.id = some t) ∧ after = v
  | v, .ledger (.transfersInRange c low high), ts, after =>
      (c = chain → v.Tells chain low high ts) ∧ after = v
  | v, .ledger (.commit _), reply, after => ∀ e, reply = .error e → after = v
  | v, .ledger (.commitPlan ..), reply, after => ∀ e, reply = .error e → after = v
  | v, .watchlist c, w, after =>
      (∃ catalog : Catalog, catalog.Consistent ∧ w = catalog.watchlist c) ∧ after = v
  | v, _, _, after => after = v

theorem idle_seeing (chain : ChainId) : Idle (Seeing chain) fun v after => after = v where
  refl _ := rfl
  trans _ _ _ first second := second.trans first
  mute := by
    intro v c reply after mute answer
    cases c with
    | ledger c =>
        cases c with
        | pendingTransfers c => exact answer.2
        | transfersInRange c low high => exact answer.2
        | commit b => cases mute
        | commitPlan writes p => cases mute
        | _ => exact answer
    | watchlist c => exact answer.2
    | _ => exact answer
  commit _ _ e _ answer := answer e rfl
  commitPlan _ _ _ e _ answer := answer e rfl

namespace Job

/-- The job may be given to the pipeline of the chain, where the chain stands
here.  Any block may. -/
def Fits (chain : ChainId) (p : Place) : Job → Prop
  | block i lease b _ => i.chain = chain ∧ lease.chain = chain ∧ b.chain = chain
  | revert i lease range =>
    i.chain = chain ∧ lease.chain = chain ∧ range.chain = chain ∧ range.Follows p
  | _ => False

/-- The job is one for a clerk:  what it brings is of no block. -/
def OffChain : Job → Prop
  | settle _ _ new _ => ∀ t ∈ new, t.originHeight = none
  | payment .. => True
  | booking .. => True
  | _ => False

/-- What the pipeline of a chain may commit for a job, where things are as in the view. -/
def Commits (chain : ChainId) (v : View) (batch : Batch) : Job → Prop
  | block _ _ b _ => batch.Absorbs b chain v
  | revert _ _ range => batch.Reverts range chain v
  | _ => False

end Job

section Pipelines

variable {i : Ingest} {lease : Lease} {b : Block} {base : Bool} {range : RevertedRange}
    {chain : ChainId}
variable {v there : View} {c : Call}

/-- Of a block, nothing is written but what its pipeline sees. -/
theorem Ingest.absorbs_of_block (fits : (Job.block i lease b base).Fits chain v.place)
    (makes : (i.block lease b base).Makes (Seeing chain) v c there) :
    c.Plain ∨ ∃ batch, c = .ledger (.commit batch) ∧ batch.Absorbs b chain there := by
  obtain ⟨ofChain, leaseChain, blockChain⟩ := fits
  have idle := idle_seeing chain
  rcases makes_block idle makes with plain | ⟨p, rfl⟩
  · exact Or.inl plain
  refine Or.inr ⟨p.batch, rfl, ?_⟩
  have atStart : p.asking = v := p.waits.trans (idle.of_mute (only_gather b) p.reads)
  have told : p.told = p.asking := p.pending.2
  have still : there = v := by
    rw [idle.of_mute (only_plan i _) p.plans, show p.planning = p.told from p.clock,
      told, atStart]
  have isOf := isOf_of_gather (fun _ _ _ _ answer => answer.1) p.reads
  subst still
  have pending : ∀ t ∈ p.stored, there.waiting t.id = some t := by
    intro t member
    have waits := p.pending.1 ofChain t member
    rwa [atStart] at waits
  have target : (startOf lease b base).target = b.ref := by cases base <;> rfl
  constructor
  case ofChain =>
    have started : (startOf lease b base).chain = lease.chain := by cases base <;> rfl
    exact started.trans leaseChain
  case target => exact target
  case noRange => cases base <;> rfl
  case link =>
    cases base
    · exact Or.inr rfl
    · exact Or.inl rfl
  case events =>
    intro e member
    exact ⟨(isOf e member).chain.trans blockChain, (isOf e member).height⟩
  case writes =>
    intro w member
    rcases mem_confirmation_writes member with ⟨u, stored, t, due, rfl⟩ | ⟨u, new, rfl⟩
    · have changed := Transfer.confirmedAs_of_due due
      refine ⟨by simp [changed.status], u, ?_⟩
      rw [changed.id]
      exact pending u stored
    · obtain ⟨e, among, represents⟩ := represents_of_gather p.reads u new
      obtain ⟨-, origin, token, -, -⟩ :=
        getD_confirmDue? i.depth (startOf lease b base).target.height p.now u
      refine ⟨?_, ?_⟩
      · rw [Transfer.chain, token, represents.token]
        exact (isOf e among).tokenChain.trans blockChain
      · simp only [Transfer.originHeight, origin, represents.origin, ChainEvent.origin]
        exact congrArg some (isOf e among).height

/-- A reorganisation writes what its pipeline sees, reverted. -/
theorem Ingest.reverts_of_revert (fits : (Job.revert i lease range).Fits chain v.place)
    (makes : (i.revert lease range).Makes (Seeing chain) v c there) :
    c.Plain ∨ ∃ batch, c = .ledger (.commit batch) ∧ batch.Reverts range chain there := by
  obtain ⟨ofChain, leaseChain, rangeChain, follows⟩ := fits
  rcases makes_revert (idle_seeing chain) makes with plain | ⟨p, rfl⟩
  · exact Or.inl plain
  refine Or.inr ⟨p.batch lease, rfl, ?_⟩
  have atStart : p.asking = v := p.waits
  have still : there = v := p.told.2.trans atStart
  subst still
  have tells := p.told.1 ofChain
  rw [atStart] at tells
  constructor
  case ofChain => exact leaseChain
  case rangeChain => exact rangeChain
  case follows => exact follows
  case target => rfl
  case link => rfl
  case isRange => rfl
  case writes => exact ⟨p.stored, tells, rfl⟩
  case noEvents => rfl
  case noClaims => rfl
  case noDeposits => rfl

/-- For a job that fits, the pipeline of a chain commits nothing else. -/
theorem Job.commits_of_makes {j : Job} (fits : j.Fits chain v.place)
    (makes : j.flow.Makes (Seeing chain) v c there) :
    c.Plain ∨ ∃ batch, c = .ledger (.commit batch) ∧ j.Commits chain there batch := by
  cases j with
  | block i lease b base =>
      rcases Flow.makes_bind.1 makes with makes | ⟨_, _, -, none⟩
      · exact Ingest.absorbs_of_block fits makes
      · exact none.elim
  | revert i lease range =>
      rcases Flow.makes_bind.1 makes with makes | ⟨_, _, -, none⟩
      · exact Ingest.reverts_of_revert fits makes
      · exact none.elim
  | _ => exact fits.elim

end Pipelines

/-! ## What a clerk writes -/

/-- The call commits nothing but new transfers of no block. -/
def Call.OffChain : Call → Prop
  | .ledger (.commit _) => False
  | .ledger (.commitPlan writes _) =>
      ∀ w ∈ writes, ∃ t, w = .insert t ∧ t.originHeight = none
  | _ => True

theorem Call.Plain.offChain {c : Call} (plain : c.Plain) : c.OffChain := by
  cases c with
  | ledger c =>
      cases c with
      | commit b => exact plain.elim
      | commitPlan writes p => exact plain.elim
      | _ => trivial
  | _ => trivial

theorem MatchingRules.only_settle (rules : MatchingRules) (chain : ChainId)
    (stored : List Transfer) {new : List Transfer}
    (noBlock : ∀ t ∈ new, t.originHeight = none) :
    (rules.settle chain new stored).Only Call.OffChain := by
  refine Flow.only_of_makes fun c there makes => ?_
  rcases makes_settle (idle_true _) makes with plain | ⟨-, plan, rfl⟩
  · exact plain.offChain
  · intro w member
    obtain ⟨t, isNew, rfl⟩ := List.mem_map.1 member
    exact ⟨t, rfl, noBlock t isNew⟩

theorem Payment.originHeight_of_transfer {p : Payment} {stamp : Stamp} {t : Transfer}
    (made : p.transfer stamp = .ok t) : t.originHeight = none := by
  unfold transfer at made
  split at made
  · cases made
  · split at made
    all_goals
      cases made
      rfl

theorem Transfer.originHeight_of_accounts {stamp : Stamp} {sender receiver : String}
    {token : Token} {amount : Amount} {memo : Option String} {t : Transfer}
    (made : ofAccounts stamp sender receiver token amount memo = .ok t) :
    t.originHeight = none := by
  unfold ofAccounts at made
  split at made
  · cases made
  · cases made
    rfl

/-- A clerk writes what is of no block, and nothing else. -/
theorem Job.OffChain.only {j : Job} (offChain : j.OffChain) :
    j.flow.Only Call.OffChain := by
  have one : ∀ (rules : MatchingRules) (chain : ChainId) (t : Transfer),
    t.originHeight = none →
      (rules.settle chain [t] []).Only Call.OffChain := by
    intro rules chain t noBlock
    exact rules.only_settle chain [] (by simpa using noBlock)
  cases j with
  | settle rules chain new stored =>
      exact Flow.only_bind (rules.only_settle chain stored offChain) fun _ =>
        Flow.only_pure _
  | payment rules p =>
      refine Flow.only_bind ?_ fun _ => Flow.only_pure _
      unfold Payment.ingest
      refine Flow.only_bind (Flow.only_ask.2 trivial) fun stamp => ?_
      split
      · exact Flow.only_pure _
      · rename_i t made
        refine Flow.only_bind (Flow.only_ask.2 trivial) fun known => ?_
        split
        · exact Flow.only_pure _
        · refine Flow.only_bind (one rules _ t (Payment.originHeight_of_transfer made))
            fun result => ?_
          cases result <;> exact Flow.only_pure _
  | booking s sender receiver token amount memo =>
      refine Flow.only_bind ?_ fun _ => Flow.only_pure _
      unfold Settings.recordInternal
      refine Flow.only_bind (Flow.only_ask.2 trivial) fun stamp => ?_
      split
      · exact Flow.only_pure _
      · rename_i t made
        refine Flow.only_bind
          (one s.engine.rules _ t (Transfer.originHeight_of_accounts made)) fun result =>
            ?_
        cases result <;> exact Flow.only_pure _
  | _ => exact offChain.elim

/-! ## What a tracker tells -/

/-- The job of a pipeline for an errand. -/
def Errand.job? (i : Ingest) (lease : Lease) : Errand → Option Job
  | base b => some (.block i lease b true)
  | message (.accepted b _) => some (.block i lease b false)
  | message (.reverted range) => some (.revert i lease range)
  | message _ => none

/-- A tracker and the place of its chain are in step, so what is due fits,
also once more. -/
theorem Pursuit.Locked.fits {i : Ingest} {answers : Answering Surroundings} {s : Pursuit}
    (locked : s.Locked i answers)
    (given : ∀ b, Gives answers i.chain b → b.chain = i.chain) {errand : Errand}
    (due : s.Due errand) {lease : Lease} (leaseChain : lease.chain = i.chain) {j : Job}
    (isJob : errand.job? i lease = some j) : j.Fits i.chain (s.ledger.place i.chain) := by
  have settled : ∀ m, s.messages.head? = some m →
      s.settled.Continues (Gives answers i.chain) m ∧
      s.settled.tip? = (s.ledger.place i.chain).mark ∧
        s.settled.chain = i.chain := by
    intro m isFirst
    obtain ⟨rest, messages⟩ := List.head?_eq_some_iff.1 isFirst
    obtain ⟨following, continues, -⟩ := locked.next messages
    exact ⟨continues, (locked.agree following).tip, locked.settledChain following⟩
  cases errand with
  | base b =>
      cases isJob
      exact ⟨rfl, leaseChain, given b (locked.basis b due).isGiven⟩
  | message m =>
      cases m with
      | accepted b live =>
          cases isJob
          rcases due with isFirst | isLast
          · obtain ⟨⟨isGiven, -⟩, -⟩ := settled _ isFirst
            exact ⟨rfl, leaseChain, given b isGiven⟩
          · obtain ⟨isGiven, -⟩ := locked.last _ isLast
            exact ⟨rfl, leaseChain, given b isGiven⟩
      | reverted range =>
          cases isJob
          rcases due with isFirst | isLast
          · obtain ⟨⟨tip, retreat⟩, isTip, ofChain⟩ := settled _ isFirst
            refine ⟨rfl, leaseChain, retreat.chain.trans ofChain, retreat.fromFork,
              fun mark isMark => Or.inl ?_⟩
            cases retreat.isTip.symm.trans (isTip.trans isMark)
            exact retreat.toTip.symm
          · obtain ⟨ofChain, isMark, fromFork, -⟩ := locked.last _ isLast
            refine ⟨rfl, leaseChain, ofChain, fromFork, fun mark isOther => Or.inr ?_⟩
            exact Option.some.inj (isOther.symm.trans isMark)
      | _ => cases isJob

/-- In every run of a worker and its tracker, whatever is due fits. -/
theorem Pursuit.fits_of_due {i : Ingest} {answers : Answering Surroundings}
    {settings : TrackerSettings} {s : Pursuit} (placing : Placing i.chain answers)
    (given : ∀ b, Gives answers i.chain b → b.chain = i.chain)
    (run : Pursuit.Run i answers (Pursuit.start i settings) s) {errand : Errand}
    (due : s.Due errand) {lease : Lease} (leaseChain : lease.chain = i.chain) {j : Job}
    (isJob : errand.job? i lease = some j) : j.Fits i.chain (s.ledger.place i.chain) :=
  (locked_run placing run).fits given due leaseChain isJob

end Paywatch
