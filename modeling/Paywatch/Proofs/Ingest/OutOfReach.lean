import Paywatch.Proofs.Ingest.Proposal
import Paywatch.Proofs.Ingest.SingleCredit
import Paywatch.Proofs.Ledger.Consumers

/-!
# Confirmed transfers are out of reach

A transfer is confirmed once so many blocks lie above it, and a reorganisation takes
back no block that lies so deep below the highest one told before.  The highest block
never sinks, whatever is taken back, so what is confirmed sinks only deeper below it,
from reorganisation to reorganisation.  Where the second depth does not exceed the
first, no reorganisation finds a confirmed transfer in its range.
-/

namespace Paywatch

namespace Ledger

variable {l after : Ledger} {chain : ChainId} {depth : UInt64} {top : Nat}

/-- The confirmed on-chain transfers of a chain lie so deep below the top. -/
def Sunk (l : Ledger) (chain : ChainId) (depth : UInt64) (top : Nat) : Prop :=
  ∀ id t h, l.transfers.get? id = some t → t.status = .confirmed → t.chain = chain →
    t.originHeight = some h → h.toNat + depth.toNat ≤ top

/-- No on-chain transfer of the chain is confirmed that was not so before. -/
def ConfirmsNone (chain : ChainId) (l after : Ledger) : Prop :=
  ∀ id t h, after.transfers.get? id = some t → t.status = .confirmed → t.chain = chain →
    t.originHeight = some h → ∃ id', l.transfers.get? id' = some t

theorem confirmsNone_of_eq (same : after.transfers = l.transfers) :
    ConfirmsNone chain l after := by
  intro id t h found _ _ _
  rw [same] at found
  exact ⟨id, found⟩

theorem Sunk.of_confirmsNone (sunk : l.Sunk chain depth top)
    (none : ConfirmsNone chain l after) : after.Sunk chain depth top := by
  intro id t h found confirmed ofChain atHeight
  obtain ⟨id', before⟩ := none id t h found confirmed ofChain atHeight
  exact sunk id' t h before confirmed ofChain atHeight

theorem Sunk.mono {higher : Nat} (sunk : l.Sunk chain depth top) (le : top ≤ higher) :
    l.Sunk chain depth higher :=
  fun id t h found confirmed ofChain atHeight =>
    Nat.le_trans (sunk id t h found confirmed ofChain atHeight) le

theorem confirmsNone_of_plain {c : Call} (plain : Call.Plain (.ledger c)) :
    ConfirmsNone chain l (l.perform c).2 := by
  have commits : c.commits = false := by
    cases c with
    | commit b => exact plain.elim
    | commitPlan writes p => exact plain.elim
    | _ => rfl
  exact confirmsNone_of_eq (sameRecords_perform l commits).transfers

/-- A batch that writes as confirmed only what has sunk keeps the others
where they are. -/
theorem Sunk.commit {b : Batch} (sunk : l.Sunk chain depth top)
    (writes : ∀ w ∈ b.writes, ∀ h, w.transfer.status = .confirmed →
      w.transfer.originHeight = some h → h.toNat + depth.toNat ≤ top) :
    (l.perform (.commit b)).2.Sunk chain depth top := by
  intro id t h found confirmed ofChain atHeight
  have among : ∀ w, w ∈ (Call.commit b).written l → w ∈ b.writes := by
    intro w written
    simp only [Call.written] at written
    split at written
    · exact written
    · cases written
  rw [(booked_commit l b).transfers] at found
  rcases written_or_leftOut l ((Call.commit b).written l) id with
    ⟨w, member, -, there⟩ | ⟨same, -⟩
  · rw [there] at found
    obtain rfl := Option.some.inj found
    exact writes w (among w member) h confirmed atHeight
  · rw [same] at found
    exact sunk id t h found confirmed ofChain atHeight

end Ledger

/-- Calls are answered by a ledger that others may change, but none of them confirms an
on-chain transfer of the chain. -/
structure Reserved (chain : ChainId) (answers : Answering Surroundings) : Prop where
  ledger : ∀ s c reply after, answers s (.ledger c) reply after → ∃ l : Ledger,
    s.ledger.ConfirmsNone chain l ∧ reply = (l.perform c).1 ∧
      (l.perform c).2.ConfirmsNone chain after.ledger
  other : ∀ s c reply after, (∀ d, c ≠ .ledger d) → answers s c reply after →
    s.ledger.ConfirmsNone chain after.ledger
  inPlace : GivesInPlace answers

/-- Where nobody else changes anything, nobody else confirms anything. -/
theorem Alone.reserved {catalog : Catalog} {answers : Answering Surroundings}
    (alone : Alone catalog answers) (chain : ChainId) : Reserved chain answers where
  ledger := by
    intro s c reply after answer
    obtain ⟨rfl, rfl⟩ := alone _ _ _ _ answer
    exact ⟨s.ledger, Ledger.confirmsNone_of_eq rfl, rfl, Ledger.confirmsNone_of_eq rfl⟩
  other := by
    intro s c reply after aside answer
    refine Ledger.confirmsNone_of_eq ?_
    have answer := alone _ _ _ _ answer
    cases c with
    | ledger d => exact absurd rfl (aside d)
    | stamp =>
        obtain ⟨-, rfl⟩ := answer
        rfl
    | watchlist chain => rw [answer.2]
    | node chain q =>
        cases q with
        | block height => rw [answer.2]
        | _ => rw [show after = s from answer]
    | _ => rw [show after = s from answer]
  inPlace := alone.givesInPlace

section Reserved

variable {answers : Answering Surroundings} {s after : Surroundings} {i : Ingest}
    {top : Nat}

/-- The worker keeps what is confirmed below the top, if it confirms nothing above. -/
theorem Reserved.maintains {α : Type} {x : Flow α} (reserved : Reserved i.chain answers)
    (commits : ∀ c there, x.Makes answers s c there → c.Plain ∨
      ∃ batch : Batch, c = .ledger (.commit batch) ∧
        ∀ w ∈ batch.writes, ∀ h, w.transfer.status = .confirmed →
          w.transfer.originHeight = some h → h.toNat + i.depth.toNat ≤ top) :
    x.Maintains answers (fun s => s.ledger.Sunk i.chain i.depth top) s := by
  intro c there reply after makes sunk answer
  cases c with
  | ledger d =>
      obtain ⟨l, before, -, behind⟩ := reserved.ledger _ _ _ _ answer
      have here := sunk.of_confirmsNone before
      refine Ledger.Sunk.of_confirmsNone ?_ behind
      rcases commits _ _ makes with plain | ⟨batch, same, writes⟩
      · exact here.of_confirmsNone (Ledger.confirmsNone_of_plain plain)
      · cases same
        exact here.commit writes
  | _ => exact sunk.of_confirmsNone (reserved.other _ _ _ _ (by simp) answer)

/-- What a block confirms lies deep enough below it. -/
theorem Ingest.Proposal.sunk {σ : Type} {answers : Answering σ} {R : σ → σ → Prop}
    {start : Batch} {b : Block} {s there : σ}
    (p : Ingest.Proposal answers R i start b s there) {w : TransferWrite}
    (member : w ∈ p.batch.writes) (confirmed : w.transfer.status = .confirmed)
    {h : Height} (atHeight : w.transfer.originHeight = some h) :
    h.toNat + i.depth.toNat ≤ start.target.height.toNat := by
  have deep : ∀ u t : Transfer, u.confirmDue? i.depth start.target.height p.now = some t →
      t.originHeight = some h → h.toNat + i.depth.toNat ≤ start.target.height.toNat := by
    intro u t changed atHeight
    have confirmed := Transfer.confirmedAs_of_due changed
    obtain ⟨height, wasAt, due⟩ := confirmed.due
    have same : t.originHeight = u.originHeight := by
      rw [Transfer.originHeight, confirmed.origin, Transfer.originHeight]
    rw [same, wasAt] at atHeight
    cases atHeight
    exact due_iff.1 due
  rcases Ingest.mem_confirmation_writes member with
    ⟨u, -, t, changed, rfl⟩ | ⟨u, new, rfl⟩
  · exact deep u t changed atHeight
  · cases changed : u.confirmDue? i.depth start.target.height p.now with
    | some t =>
        simp only [TransferWrite.transfer, changed, Option.getD_some] at atHeight
        exact deep u t changed atHeight
    | none =>
        -- A new transfer that is not confirmed at once is pending.
        obtain ⟨e, -, represents⟩ := Ingest.represents_of_gather p.reads u new
        simp only [TransferWrite.transfer, changed, Option.getD_none,
          represents.pending] at confirmed
        cases confirmed

/-- A reorganisation confirms nothing. -/
theorem Ingest.Reversal.unconfirmed {σ : Type} {answers : Answering σ} {R : σ → σ → Prop}
    {range : RevertedRange} {s there : σ} (p : Ingest.Reversal answers R i range s there)
    (lease : Lease) {w : TransferWrite} (member : w ∈ (p.batch lease).writes) :
    w.transfer.status = .reverted := by
  obtain ⟨t, changed, rfl⟩ := List.mem_map.1 member
  obtain ⟨u, -, reverted⟩ := List.mem_filterMap.1 changed
  obtain ⟨-, rfl⟩ := Transfer.revertIn?_eq_some.1 reverted
  rfl

theorem Reserved.maintains_revert (reserved : Reserved i.chain answers) (lease : Lease)
    (range : RevertedRange) (s : Surroundings) : (i.revert lease range).Maintains answers
      (fun s => s.ledger.Sunk i.chain i.depth top) s := by
  refine reserved.maintains fun c there makes => ?_
  rcases Ingest.makes_revert (idle_true answers) makes with plain | ⟨p, rfl⟩
  · exact Or.inl plain
  · refine Or.inr ⟨_, rfl, fun w member h confirmed => ?_⟩
    rw [p.unconfirmed lease member] at confirmed
    cases confirmed

theorem Reserved.maintains_block (reserved : Reserved i.chain answers) (lease : Lease)
    (b : Block) (base : Bool) (reached : b.height.toNat ≤ top) (s : Surroundings) :
    (i.block lease b base).Maintains answers (fun s => s.ledger.Sunk i.chain i.depth top)
      s := by
  refine reserved.maintains fun c there makes => ?_
  rcases Ingest.makes_block (idle_true answers) makes with plain | ⟨p, rfl⟩
  · exact Or.inl plain
  · refine Or.inr ⟨_, rfl, fun w member h confirmed atHeight => ?_⟩
    have target : (Ingest.startOf lease b base).target.height = b.height := by
      unfold Ingest.startOf
      split <;> rfl
    have deep := p.sunk member confirmed atHeight
    rw [target] at deep
    omega

/-- Whether a message is applied or fails, what is confirmed then lies deep below the
top of the stream with the message. -/
theorem Reserved.sunk_apply (reserved : Reserved i.chain answers) {lease : Lease}
    {m : Message} {r : Except WorkerError Unit}
    (leads : (i.apply lease m).Leads answers s r after)
    (sunk : s.ledger.Sunk i.chain i.depth top) :
    after.ledger.Sunk i.chain i.depth (m.top top) := by
  cases m with
  | accepted b live =>
      obtain ⟨result, there, ingests, rfl, rfl⟩ := Flow.leads_bind.1 leads
      exact ingests.maintained
        (reserved.maintains_block lease b false (Nat.le_max_right _ _) s)
        (sunk.mono (Nat.le_max_left _ _))
  | reverted range =>
      obtain ⟨result, there, reverts, rfl, rfl⟩ := Flow.leads_bind.1 leads
      exact reverts.maintained (reserved.maintains_revert lease range s) sunk
  | unavailable attempt retryIn =>
      obtain ⟨-, rfl⟩ := leads
      exact sunk
  | halted reason =>
      obtain ⟨-, rfl⟩ := leads
      exact sunk

end Reserved

/-! ## Following a chain among others -/

/-- A tracker, what it told that is not applied yet, and what both live in. -/
structure Course where
  tracker : Tracker
  messages : List Message
  surroundings : Surroundings

namespace Course

def ledger (s : Course) : Ledger := s.surroundings.ledger

inductive Step (i : Ingest) (answers : Answering Surroundings) :
    Course → Course → Prop where
  /-- The tracker goes on, and tells what it found, also if it fails in the end. -/
  | advance (s : Course) (target : Height) (live : Bool) (a : Tracker.Advance)
      (after : Surroundings)
      (leads : (s.tracker.advance target live).Leads answers s.surroundings a after) :
      Step i answers s ⟨a.tracker, s.messages ++ a.messages, after⟩
  /-- The oldest message is applied, or fails and has to be applied again. -/
  | apply (s : Course) (m : Message) (rest : List Message) (lease : Lease)
      (r : Except WorkerError Unit) (after : Surroundings) (next : s.messages = m :: rest)
      (leads : (i.apply lease m).Leads answers s.surroundings r after) :
      Step i answers s ⟨s.tracker, if r.isOk then rest else s.messages, after⟩
  /-- Somebody else does something. -/
  | other (s : Course) (after : Surroundings)
      (none : s.ledger.ConfirmsNone i.chain after.ledger) :
      Step i answers s { s with surroundings := after }

abbrev Run (i : Ingest) (answers : Answering Surroundings) : Course → Course → Prop :=
  Relation.ReflTransGen (Step i answers)

/-- The stream that is left is shallow from the top of what was applied, and what is
confirmed lies deep below it. -/
structure Shielded (i : Ingest) (s : Course) (highest : Nat) : Prop where
  within : s.tracker.settings.maxReorgDepth.toNat ≤ i.depth.toNat
  shallow : Message.Shallow s.tracker.settings.maxReorgDepth.toNat highest s.messages
  stands : s.tracker.StandsAt (s.messages.foldl Message.top highest)
  sunk : s.ledger.Sunk i.chain i.depth highest

variable {i : Ingest} {answers : Answering Surroundings} {s after : Course}
    {highest : Nat}

theorem top_top (m : Message) (highest : Nat) :
    m.top (m.top highest) = m.top highest := by
  cases m <;> simp [Message.top]

theorem Shielded.step (reserved : Reserved i.chain answers)
    (shielded : Shielded i s highest) (step : Step i answers s after) :
    ∃ highest', Shielded i after highest' := by
  obtain ⟨within, shallow, stands, sunk⟩ := shielded
  cases step with
  | advance target live a surroundings leads =>
      have reports := Tracker.reports_advance reserved.inPlace stands leads
      refine ⟨highest, ?_, ?_, ?_, ?_⟩
      · rw [reports.settings]
        exact within
      · rw [reports.settings]
        exact Message.shallow_append.2 ⟨shallow, reports.shallow⟩
      · rw [List.foldl_append]
        exact reports.stands
      · refine leads.maintained (reserved.maintains fun c there makes => ?_) sunk
        exact Or.inl ((Tracker.only_advance _ _ _).makes makes)
  | apply m rest lease r surroundings next leads =>
      have sunkAfter := reserved.sunk_apply leads sunk
      rw [next] at shallow stands
      refine ⟨m.top highest, within, ?_, ?_, sunkAfter⟩
      · split
        · exact shallow.2
        · rw [next, Message.Shallow, top_top]
          refine ⟨?_, shallow.2⟩
          cases m with
          | reverted range => exact shallow.1
          | _ => trivial
      · split
        · exact stands
        · rw [next, List.foldl_cons, top_top]
          exact stands
  | other surroundings none =>
      exact ⟨highest, within, shallow, stands, sunk.of_confirmsNone none⟩

theorem Shielded.run (reserved : Reserved i.chain answers)
    (shielded : Shielded i s highest) (run : Run i answers s after) :
    ∃ highest', Shielded i after highest' := by
  induction run with
  | refl => exact ⟨highest, shielded⟩
  | tail _ step ih =>
      obtain ⟨_, there⟩ := ih
      exact there.step reserved step

/-- A tracker that stands at the watermark begins, and what is confirmed
lies deep below it. -/
theorem shielded_of_watermark (within : s.tracker.settings.maxReorgDepth ≤ i.depth)
    (nothing : s.messages = []) (stands : s.tracker.tip? = s.ledger.watermark i.chain)
    (sunk : ∀ id t h, s.ledger.transfers.get? id = some t → t.status = .confirmed →
      t.chain = i.chain → t.originHeight = some h →
        ∃ mark, s.ledger.watermark i.chain = some mark ∧
          h.toNat + i.depth.toNat ≤ mark.height.toNat) :
    ∃ highest, Shielded i s highest := by
  obtain ⟨highest, standsAt⟩ := Session.exists_standsAt s.tracker
  refine ⟨highest, UInt64.le_iff_toNat_le.1 within, ?_, ?_, ?_⟩
  · rw [nothing]
    trivial
  · rw [nothing]
    exact standsAt
  · intro id t h found confirmed ofChain atHeight
    obtain ⟨mark, isMark, deep⟩ := sunk id t h found confirmed ofChain atHeight
    rw [Tracker.StandsAt, stands, isMark] at standsAt
    exact deep.trans (Nat.le_of_eq standsAt)

/-- Where reorganisations are no deeper than transfers have to lie to be confirmed, no
reorganisation of a stream finds a confirmed transfer in its range, however often it
reads the range, whatever the nodes answer, and whatever others do with the ledger short
of confirming transfers of the chain. -/
theorem confirmed_out_of_reach (reserved : Reserved i.chain answers)
    (within : s.tracker.settings.maxReorgDepth ≤ i.depth) (nothing : s.messages = [])
    (stands : s.tracker.tip? = s.ledger.watermark i.chain)
    (sunk : ∀ id t h, s.ledger.transfers.get? id = some t → t.status = .confirmed →
      t.chain = i.chain → t.originHeight = some h →
        ∃ mark, s.ledger.watermark i.chain = some mark ∧
          h.toNat + i.depth.toNat ≤ mark.height.toNat)
    (run : Run i answers s after) {range : RevertedRange} {rest : List Message}
    (next : after.messages = .reverted range :: rest) {lease : Lease}
    {there told : Surroundings} {found : List Transfer}
    (reads : (i.revert lease range).Makes answers after.surroundings
      (.ledger (.transfersInRange i.chain range.fromHeight range.toHeight)) there)
    (answer : answers there
      (.ledger (.transfersInRange i.chain range.fromHeight range.toHeight)) found told) :
    (Transfer.revertAllIn range found).2.2 = [] := by
  obtain ⟨_, first⟩ := shielded_of_watermark within nothing stands sunk
  obtain ⟨highest, shielded⟩ := first.run reserved run
  have sunkThere :=
    reads.maintained (reserved.maintains_revert lease range _) shielded.sunk
  obtain ⟨l, before, rfl, -⟩ := reserved.ledger _ _ _ _ answer
  have sunkHere := sunkThere.of_confirmsNone before
  have shallow := shielded.shallow
  rw [next] at shallow
  have near : highest < range.fromHeight.toNat + _ := shallow.1
  have bound := shielded.within
  simp only [Transfer.revertAllIn, List.map_eq_nil_iff, List.filter_eq_nil_iff,
    Bool.and_eq_true, beq_iff_eq]
  rintro t member ⟨inRange, confirmed⟩
  obtain ⟨stored, ofRange⟩ := List.mem_filter.1 member
  obtain ⟨id, isStored⟩ := Table.mem_values_iff.1 stored
  simp only [Bool.and_eq_true, beq_iff_eq, Option.any_eq_true,
    decide_eq_true_eq] at ofRange
  obtain ⟨ofChain, h, atHeight, low, -⟩ := ofRange
  have deep := sunkHere id t h isStored confirmed ofChain atHeight
  rw [UInt64.le_iff_toNat_le] at low
  omega

/-! ## A reorganisation above a confirmed transfer -/

/-- A session that only its tracker and its worker take part in is such a course. -/
theorem run_of_session {catalog : Catalog} {s after : Session}
    (run : Session.Run i catalog s after) :
    Run i (Surroundings.Answers catalog) ⟨s.tracker, s.messages, s.surroundings⟩
      ⟨after.tracker, after.messages, after.surroundings⟩ := by
  induction run with
  | refl => exact .refl
  | tail _ step ih =>
      refine ih.tail ?_
      cases step with
      | advance target live a surroundings runs =>
          exact .advance _ target live a surroundings (Flow.leads_iff_runs.2 runs)
      | apply m rest lease surroundings next leaseChain runs =>
          exact .apply _ m rest lease (.ok ()) surroundings next
            (Flow.leads_iff_runs.2 runs)
      | fail m rest lease e surroundings next leaseChain runs =>
          exact .apply _ m rest lease (.error e) surroundings next
            (Flow.leads_iff_runs.2 runs)
      | call c issued proper plain grows =>
          exact .other _ ⟨_, issued⟩
            (Ledger.confirmsNone_of_eq (Ledger.sameRecords_perform _ plain).transfers)
      | wait ticks => exact .other _ _ (Ledger.confirmsNone_of_eq rfl)

/-- Another payment. -/
def laterPayment : Tx :=
  ⟨"0xf1", 0, some Address.zero.text, some Address.zero.text, "0x7"⟩

/-- A payment in the second block and one in the third. -/
def twicePaid : Nodes :=
  ⟨[Session.sampleBlock 1 "0x01" "0x00" [],
    Session.sampleBlock 2 "0xa2" "0x01" [Session.samplePayment],
    Session.sampleBlock 3 "0xa3" "0xa2" [laterPayment]]⟩

/-- The third block is another one. -/
def oncePaid : Nodes :=
  ⟨[Session.sampleBlock 2 "0xa2" "0x01" [Session.samplePayment],
    Session.sampleBlock 3 "0xb3" "0xa2" [], Session.sampleBlock 4 "0xb4" "0xb3" []]⟩

/-- The first payment is confirmed, and then the nodes go over to the
branch without the second. -/
def turning : List Session.Act :=
  [.acquire "worker" 10, .advance twicePaid 1, .apply twicePaid Session.sampleLease,
    .advance twicePaid 3, .apply twicePaid Session.sampleLease,
    .apply twicePaid Session.sampleLease, .advance oncePaid 4]

/-- A transfer is confirmed, and the next message takes another one back. -/
def isTurning (s : Session) : Bool :=
  s.ledger.transfers.values.any (·.status == .confirmed) &&
    match s.messages with
    | .reverted range :: _ =>
      !(s.ledger.transfersInRange ⟨1⟩ range.fromHeight range.toHeight).isEmpty
    | _ => false

/-- The reorganisation finds the second payment, and nothing that is confirmed. -/
theorem confirmed_out_of_reach_turning :
    ∃ s : Course, Run Session.sampleIngest (Surroundings.Answers Session.sampleCatalog)
      ⟨.new ⟨1⟩ Session.shallowSettings, [], ⟨.empty, []⟩⟩ s ∧
    (∃ id t, s.ledger.transfers.get? id = some t ∧ t.status = .confirmed) ∧
    ∃ range rest, s.messages = .reverted range :: rest ∧
      s.ledger.transfersInRange ⟨1⟩ range.fromHeight range.toHeight ≠ [] ∧
      (Transfer.revertAllIn range
        (s.ledger.transfersInRange ⟨1⟩ range.fromHeight range.toHeight)).2.2 = [] := by
  have played : (turning.foldlM (Session.act Session.sampleIngest Session.sampleCatalog)
      (Session.start Session.sampleIngest Session.shallowSettings)).any isTurning =
        true := by
    decide +kernel
  obtain ⟨s, reached, turns⟩ := (Option.any_eq_true _ _).1 played
  rw [isTurning, Bool.and_eq_true] at turns
  obtain ⟨confirmed, turns⟩ := turns
  obtain ⟨t, member, status⟩ := List.any_eq_true.1 confirmed
  obtain ⟨id, found⟩ := Table.mem_values_iff.1 member
  have run := run_of_session (Session.run_of_play reached)
  split at turns
  · rename_i range rest next
    refine ⟨_, run, ⟨id, t, found, beq_iff_eq.1 status⟩, range, rest, next, ?_, ?_⟩
    · show s.ledger.transfersInRange _ _ _ ≠ []
      simpa [List.isEmpty_iff] using turns
    · have alone :
        Alone Session.sampleCatalog (Surroundings.Answers Session.sampleCatalog) :=
        fun _ _ _ _ answer => answer
      have reads : (Session.sampleIngest.revert Session.sampleLease range).Makes
          (Surroundings.Answers Session.sampleCatalog) s.surroundings
          (.ledger (.transfersInRange ⟨1⟩ range.fromHeight range.toHeight))
            s.surroundings :=
        Or.inl ⟨rfl, rfl⟩
      refine confirmed_out_of_reach (alone.reserved ⟨1⟩)
        (by decide) rfl rfl ?_ run next reads ⟨rfl, rfl⟩
      rintro id t h ⟨⟩
  · cases turns

end Course

end Paywatch
