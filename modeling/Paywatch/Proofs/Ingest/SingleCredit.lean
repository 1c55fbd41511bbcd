import Paywatch.Engine.Basic
import Paywatch.Proofs.Ingest.Session

/-!
# A movement is credited once

A transaction that comes back in another block is a new transfer, and confirmed
transfers stay when their block is taken back.  Both could be confirmed one after the
other, if a reorganisation could reach a confirmed transfer.  It cannot where
reorganisations are no deeper than transfers have to lie to be confirmed:  a confirmed
transfer lies that deep below the highest block so far, and the stream of the tracker
takes back nothing there.
-/

namespace Paywatch

/-- The log that a transfer on a chain stands for, whatever block it is in. -/
def Transfer.movement? (t : Transfer) : Option EventKey :=
  match t.origin with
  | .blockchain o => some ⟨o.chain, o.txHash, o.logIndex⟩
  | _ => none

theorem Transfer.movement?_of_origin {t : Transfer} {e : ChainEvent}
    (origin : t.origin = .blockchain e.origin) : t.movement? = some e.key := by
  simp [movement?, origin, ChainEvent.origin, ChainEvent.key]

namespace Ledger

/-- Confirmed transfers stand for live events, so deep below the highest block. -/
def Deep (l : Ledger) (i : Ingest) (highest : Nat) : Prop :=
  ∀ id t, l.transfers.get? id = some t → t.status = .confirmed → ∃ e,
    l.events.get? e.key = some e ∧ e.chain = i.chain ∧ t.origin = .blockchain e.origin ∧
      e.blockHeight.toNat + i.depth.toNat ≤ highest

theorem Deep.congr {l after : Ledger} {i : Ingest} {highest : Nat}
    (deep : l.Deep i highest) (same : SameRecords l after) : after.Deep i highest := by
  intro id t found status
  rw [same.transfers] at found
  rw [same.events]
  exact deep id t found status

/-- Routes are settled safely and by confirmed transfers. -/
structure Settled (l : Ledger) : Prop where
  routesKeyed : ∀ id r, l.routes.get? id = some r → r.id = id
  consumer : ∀ id r c, l.routes.get? id = some r → r.consumedBy = some c →
    ∃ t, l.transfers.get? c = some t ∧ t.status = .confirmed
  sound : ∃ claims, l.Sound claims

end Ledger

section Block

variable {h : Harvest} {i : Ingest} {b : Block} {start : Batch} {s after : Surroundings}
  {taken : List String} {highest : Nat}

/-- What a block confirms lies deep below it, and what was confirmed before stays live. -/
theorem Ledger.Deep.block (ingested : h.Ingested i b start s after)
    (noRange : start.reverted = none) (ofChain : b.chain = i.chain)
    (recorded : s.ledger.Recorded i.chain s.issued taken)
    (deep : s.ledger.Deep i highest) :
    after.ledger.Deep i (max highest start.target.height.toNat) := by
  intro id t found status
  have absorbed := ingested.absorbed recorded.toKeyed recorded.isIssued
  rcases absorbed.cases id t found with
    ⟨old, -⟩ | ⟨u, old, confirmed⟩ | ⟨u, isNew, rfl, -⟩
  · obtain ⟨e, live, chain, origin, below⟩ := deep id t old status
    exact ⟨e, ingested.events_kept noRange live, chain, origin, by omega⟩
  · have change := Transfer.confirmedAs_of_due confirmed
    obtain ⟨e, live, chain, origin, -⟩ := recorded.live id u old change.wasPending
    have below : e.blockHeight.toNat + _ ≤ _ := due_of_confirmed origin confirmed
    exact ⟨e, ingested.events_kept noRange live, chain,
      change.origin.trans origin, by omega⟩
  · obtain ⟨e, member, represents⟩ := ingested.new.ofEvents u isNew
    obtain ⟨-, origin, -, -, -⟩ := getD_confirmDue? i.depth start.target.height h.now u
    refine ⟨e, ingested.events_new noRange member,
      (ingested.ofBlock e member).chain.trans ofChain, origin.trans represents.origin, ?_⟩
    cases confirmed : u.confirmDue? i.depth start.target.height h.now with
    | none =>
        rw [confirmed, Option.getD_none, represents.pending] at status
        cases status
    | some t =>
        have below : e.blockHeight.toNat + _ ≤ _ :=
          due_of_confirmed represents.origin confirmed
        omega

/-- A new transfer is never confirmed at once. -/
theorem not_confirmed_at_once (ingested : h.Ingested i b start s after)
    (target : start.target.height = b.height) (positive : 1 ≤ i.depth) {u : Transfer}
    (isNew : u ∈ h.new) : u.confirmDue? i.depth start.target.height h.now = none := by
  cases confirmed : u.confirmDue? i.depth start.target.height h.now with
  | none => rfl
  | some t =>
      obtain ⟨e, member, represents⟩ := ingested.new.ofEvents u isNew
      have below : e.blockHeight.toNat + _ ≤ _ :=
        due_of_confirmed represents.origin confirmed
      rw [(ingested.ofBlock e member).height, target] at below
      have atLeast := UInt64.le_iff_toNat_le.1 positive
      rw [UInt64.toNat_one] at atLeast
      omega

/-- A claim of a block is on a stored route, and by a transfer that the block confirms. -/
theorem Harvest.Ingested.pays (ingested : h.Ingested i b start s after)
    (settled : s.ledger.Settled) {c : Claim} (member : c ∈ h.claims) :
    (∃ r, s.ledger.routes.get? c.routeId = some r ∧ c.orderId = r.orderId) ∧
      ∃ t ∈ (h.confirmation i start.target.height s.ledger).2, c.transferId = t.id := by
  obtain ⟨keys, planned⟩ := ingested.planned
  obtain ⟨r, inContext, t, among, pays⟩ := planned.pays c member
  obtain ⟨id, found⟩ := Table.mem_values_iff.1 (List.mem_filter.1 inContext).1
  have sameId := settled.routesKeyed id r found
  constructor
  · exact ⟨r, by rw [pays.route, sameId]; exact found, pays.order⟩
  · exact ⟨t, among, pays.transfer⟩

/-- What a block confirms was pending before it. -/
theorem Harvest.Ingested.confirmed (ingested : h.Ingested i b start s after)
    (target : start.target.height = b.height) (positive : 1 ≤ i.depth)
    (recorded : s.ledger.Recorded i.chain s.issued taken) {t : Transfer}
    (among : t ∈ (h.confirmation i start.target.height s.ledger).2) :
    ∃ t', after.ledger.transfers.get? t.id = some t' ∧ t'.status = .confirmed := by
  have absorbed := ingested.absorbed recorded.toKeyed recorded.isIssued
  simp only [Harvest.confirmation, Ingest.confirmation, List.mem_append,
    List.mem_filterMap] at among
  rcases among with ⟨u, pending, confirmed⟩ | ⟨u, isNew, confirmed⟩
  · have found :=
      (Ledger.mem_transfers_iff recorded.toKeyed).1 (List.mem_filter.1 pending).1
    have change := Transfer.confirmedAs_of_due confirmed
    rw [change.id]
    obtain ⟨t', there, fate⟩ := absorbed.present recorded.toKeyed found
    rcases fate with ⟨-, waits⟩ | confirmed'
    · rw [waits pending] at confirmed
      cases confirmed
    · exact ⟨t', there, (Transfer.confirmedAs_of_due confirmed').status⟩
  · rw [not_confirmed_at_once ingested target positive isNew] at confirmed
    cases confirmed

/-- What a block settles is settled by what it confirms. -/
theorem Ledger.Settled.block (ingested : h.Ingested i b start s after)
    (target : start.target.height = b.height) (positive : 1 ≤ i.depth)
    (recorded : s.ledger.Recorded i.chain s.issued taken) (settled : s.ledger.Settled) :
    after.ledger.Settled := by
  have absorbed := ingested.absorbed recorded.toKeyed recorded.isIssued
  have committed := Ledger.committed_of_commit ingested.committed
  constructor
  case routesKeyed =>
    intro id r found
    rw [committed.routes] at found
    obtain ⟨r', before, change⟩ := Ledger.routes_foldl_writeClaim found
    rcases change with rfl | ⟨c, -, -, rfl⟩
    · exact settled.routesKeyed id r before
    · exact settled.routesKeyed id r' before
  case consumer =>
    intro id r c found consumed
    rw [committed.routes] at found
    obtain ⟨r', before, change⟩ := Ledger.routes_foldl_writeClaim found
    rcases change with rfl | ⟨d, member, -, rfl⟩
    · obtain ⟨t, stored, status⟩ := settled.consumer id r c before consumed
      obtain ⟨t', there, fate⟩ := absorbed.present recorded.toKeyed stored
      rcases fate with ⟨rfl, -⟩ | confirmed
      · exact ⟨t', there, status⟩
      · exact ⟨t', there, (Transfer.confirmedAs_of_due confirmed).status⟩
    · cases consumed
      obtain ⟨t, among, sameId⟩ := (ingested.pays settled member).2
      rw [sameId]
      exact ingested.confirmed target positive recorded among
  case sound =>
    have matched : Ledger.WellMatched s.ledger h.claims := by
      refine ⟨ingested.checked, ?_⟩
      intro c member r found
      obtain ⟨⟨r', found', ofOrder⟩, -⟩ := ingested.pays settled member
      obtain rfl := Option.some.inj (found.symm.trans found')
      exact ofOrder
    obtain ⟨claims, sound⟩ := settled.sound
    exact ⟨claims ++ h.claims, (committed.toBooked.safe sound matched).1⟩

end Block

section Revert

variable {i : Ingest} {lease : Lease} {range : RevertedRange} {l after : Ledger}
    {highest depth : Nat}

/-- A shallow reorganisation takes back no event of a confirmed transfer. -/
theorem Ledger.Deep.revert (reverted : Reverted i.chain range l after)
    (deep : l.Deep i highest) (shallow : (Message.reverted range).IsShallow depth highest)
    (within : depth ≤ i.depth.toNat) : after.Deep i highest := by
  intro id t found status
  rcases reverted.cases id t found with ⟨old, -⟩ | ⟨u, -, changed⟩
  · obtain ⟨e, live, ofChain, origin, below⟩ := deep id t old status
    refine ⟨e, ?_, ofChain, origin, below⟩
    have outside : range.contains e.blockHeight = false := by
      have low : ¬ range.fromHeight.toNat ≤ e.blockHeight.toNat := by
        have above : highest < range.fromHeight.toNat + depth := shallow
        omega
      simp [RevertedRange.contains, UInt64.le_iff_toNat_le, low]
    rw [reverted.events, live]
    simp [outside]
  · obtain ⟨-, rfl⟩ := Transfer.revertIn?_eq_some.1 changed
    cases status

theorem Ledger.Settled.revert (keyed : l.Keyed)
    (reverted : Reverted i.chain range l after)
    (accepted : l.commit (i.revertBatch lease range l) = .ok after)
    (settled : l.Settled) :
    after.Settled := by
  have committed := Ledger.committed_of_commit accepted
  constructor
  · intro id r found
    rw [committed.routes] at found
    exact settled.routesKeyed id r found
  · intro id r c found consumed
    rw [committed.routes] at found
    obtain ⟨t, stored, status⟩ := settled.consumer id r c found consumed
    obtain ⟨t', there, fate⟩ := reverted.present keyed stored
    rcases fate with rfl | changed
    · exact ⟨t', there, status⟩
    · have pending := (Transfer.revertIn?_eq_some.1 changed).1.2
      rw [status] at pending
      cases pending
  · obtain ⟨claims, sound⟩ := settled.sound
    exact ⟨claims, sound.congr committed.routes committed.orders⟩

end Revert

/-- A call that commits nothing opens routes at most. -/
theorem Ledger.routes_perform {l : Ledger} {c : Ledger.Call} (proper : c.Proper l)
    (plain : c.commits = false) {id : RouteId} {r : Route}
    (found : (l.perform c).2.routes.get? id = some r) :
    l.routes.get? id = some r ∨ r.id = id ∧ r.consumedBy = none := by
  cases c with
  | commit b => cases plain
  | commitPlan writes p => cases plain
  | insertOrder o => exact Or.inl found
  | insertRoute new =>
      simp only [perform, insertRoute, Table.get?_insert] at found
      split at found
      · rename_i here
        cases found
        exact Or.inr ⟨here, proper.1.unconsumed⟩
      · exact Or.inl found
  | expireOrder o =>
      simp only [perform] at found
      cases expired : l.expireOrder o with
      | error e =>
          rw [expired] at found
          exact Or.inl found
      | ok result =>
          rw [expired] at found
          simp only at found
          rw [expireOrder_frame expired] at found
          exact Or.inl found
  | _ =>
      rw [perform_frame l rfl] at found
      exact Or.inl found

theorem Ledger.Settled.call {l : Ledger} {c : Ledger.Call} (proper : c.Proper l)
    (plain : c.commits = false) (settled : l.Settled) : (l.perform c).2.Settled := by
  constructor
  · intro id r found
    rcases routes_perform proper plain found with old | ⟨sameId, -⟩
    · exact settled.routesKeyed id r old
    · exact sameId
  · intro id r d found consumed
    rw [(sameRecords_perform l plain).transfers]
    rcases routes_perform proper plain found with old | ⟨-, unconsumed⟩
    · exact settled.consumer id r d old consumed
    · rw [unconsumed] at consumed
      cases consumed
  · obtain ⟨claims, sound⟩ := settled.sound
    exact ⟨_, (sound.perform c proper).1⟩

namespace Session

/-- The stream that is left is shallow from the top of what was applied,
and so is the ledger. -/
structure Guarded (i : Ingest) (s : Session) (highest : Nat) : Prop where
  within : s.tracker.settings.maxReorgDepth.toNat ≤ i.depth.toNat
  shallow : Message.Shallow s.tracker.settings.maxReorgDepth.toNat highest s.messages
  stands : s.tracker.StandsAt (s.messages.foldl Message.top highest)
  deep : s.ledger.Deep i highest
  settled : s.ledger.Settled

variable {i : Ingest} {catalog : Catalog} {settings : TrackerSettings} {s after : Session}

theorem guarded_start (within : settings.maxReorgDepth ≤ i.depth) :
    Guarded i (start i settings) 0 where
  within := UInt64.le_iff_toNat_le.1 within
  shallow := trivial
  stands := rfl
  deep := by simp [Ledger.Deep, start, ledger, Ledger.empty]
  settled := ⟨by simp [start, ledger, Ledger.empty],
    by simp [start, ledger, Ledger.empty], [], Ledger.sound_empty⟩

theorem guarded_step (consistent : catalog.Consistent) (positive : 1 ≤ i.depth)
    (tracked : Tracked i s) {highest : Nat} (guarded : Guarded i s highest)
    (step : Step i catalog s after) : ∃ highest', Guarded i after highest' := by
  obtain ⟨within, shallow, stands, deep, settled⟩ := guarded
  cases step with
  | advance target live a surroundings runs =>
      obtain ⟨rfl, reports⟩ := Tracker.runs_advance stands runs
      refine ⟨highest, ?_, ?_, ?_, deep, settled⟩
      · rw [reports.settings]
        exact within
      · rw [reports.settings]
        exact Message.shallow_append.2 ⟨shallow, reports.shallow⟩
      · rw [List.foldl_append]
        exact reports.stands
  | apply m rest lease surroundings next leaseChain runs =>
      have ofChain := tracked.ofChain
      rw [next, List.forall_mem_cons] at ofChain
      rw [next] at shallow stands
      rcases Ingest.runs_apply consistent runs with ⟨⟨e, failed⟩, -⟩ | ⟨-, grows, applied⟩
      · cases failed
      · suffices both : surroundings.ledger.Deep i (m.top highest) ∧
          surroundings.ledger.Settled from
          ⟨m.top highest, within, shallow.2, stands, both.1, both.2⟩
        cases m with
        | accepted b live =>
            obtain ⟨h, ingested⟩ := applied
            exact ⟨deep.block ingested rfl ofChain.1 tracked.recorded,
              settled.block ingested rfl positive tracked.recorded⟩
        | reverted range =>
            have keyed := tracked.recorded.toKeyed
            have reverted := reverted_of_commit keyed leaseChain ofChain.1 applied
            exact ⟨deep.revert reverted shallow.1 within,
              settled.revert keyed reverted applied⟩
        | unavailable attempt retryIn =>
            have sameLedger : surroundings.ledger = s.ledger := applied
            rw [sameLedger]
            exact ⟨deep, settled⟩
        | halted reason =>
            have sameLedger : surroundings.ledger = s.ledger := applied
            rw [sameLedger]
            exact ⟨deep, settled⟩
  | fail m rest lease e surroundings next leaseChain runs =>
      rcases Ingest.runs_apply consistent runs with ⟨-, quiet⟩ | ⟨ok, -⟩
      · have both : surroundings.ledger.Deep i highest ∧ surroundings.ledger.Settled := by
          rw [quiet.ledger]
          exact ⟨deep, settled⟩
        exact ⟨highest, within, shallow, stands, both.1, both.2⟩
      · cases ok
  | call c issued proper plain grows =>
      have same := Ledger.sameRecords_perform s.ledger plain
      exact ⟨highest, within, shallow, stands, deep.congr same, settled.call proper plain⟩
  | wait ticks =>
      refine ⟨highest, within, shallow, stands, deep, settled.routesKeyed,
        settled.consumer, ?_⟩
      obtain ⟨claims, sound⟩ := settled.sound
      exact ⟨claims, sound.congr rfl rfl⟩

theorem guarded_run (consistent : catalog.Consistent) (positive : 1 ≤ i.depth)
    (within : settings.maxReorgDepth ≤ i.depth)
    (run : Run i catalog (start i settings) s) :
    ∃ highest, Guarded i s highest := by
  induction run with
  | refl => exact ⟨0, guarded_start within⟩
  | tail reached step ih =>
      obtain ⟨highest, guarded⟩ := ih
      exact guarded_step consistent positive (tracked_run consistent reached) guarded step

/-- Where reorganisations are no deeper than transfers have to lie to be
confirmed, there is one confirmed transfer of a log at most, and one log
settles one route at most. -/
theorem credited_once {entries : List TargetEntry}
    (listed : Catalog.ofEntries entries = .ok catalog) (positive : 1 ≤ i.depth)
    (within : settings.maxReorgDepth ≤ i.depth)
    (run : Run i catalog (start i settings) s) :
    (∀ id id' t t', s.ledger.transfers.get? id = some t →
      s.ledger.transfers.get? id' = some t' → t.status = .confirmed →
        t'.status = .confirmed →
      t.movement? = t'.movement? → id = id') ∧
    (∀ id r c, s.ledger.routes.get? id = some r → r.consumedBy = some c →
      ∃ t, s.ledger.transfers.get? c = some t ∧ t.status = .confirmed ∧
        t.movement?.isSome) ∧
    ∀ id id' r r' c c' t t', s.ledger.routes.get? id = some r →
      s.ledger.routes.get? id' = some r' → r.consumedBy = some c →
        r'.consumedBy = some c' →
      s.ledger.transfers.get? c = some t → s.ledger.transfers.get? c' = some t' →
      t.movement? = t'.movement? → id = id' := by
  have consistent := Catalog.consistent_of_ofEntries listed
  have recorded := (tracked_run consistent run).recorded
  obtain ⟨highest, guarded⟩ := guarded_run consistent positive within run
  have unique : ∀ id id' t t', s.ledger.transfers.get? id = some t →
      s.ledger.transfers.get? id' = some t' → t.status = .confirmed →
      t'.status = .confirmed →
      t.movement? = t'.movement? → id = id' := by
    intro id id' t t' found found' confirmed confirmed' sameLog
    obtain ⟨e, live, -, origin, -⟩ := guarded.deep id t found confirmed
    obtain ⟨e', live', -, origin', -⟩ := guarded.deep id' t' found' confirmed'
    rw [Transfer.movement?_of_origin origin,
      Transfer.movement?_of_origin origin'] at sameLog
    -- There is one live event of the log, so both stand for it.
    rw [Option.some.inj sameLog, live'] at live
    cases live
    refine (recorded.unique found found' ?_).1
    rw [Transfer.dedupeKey_of_origin origin, Transfer.dedupeKey_of_origin origin']
  refine ⟨unique, ?_, ?_⟩
  · intro id r c found consumed
    obtain ⟨t, stored, confirmed⟩ := guarded.settled.consumer id r c found consumed
    obtain ⟨e, -, -, origin, -⟩ := guarded.deep c t stored confirmed
    exact ⟨t, stored, confirmed, by rw [Transfer.movement?_of_origin origin]; rfl⟩
  · intro id id' r r' c c' t t' found found' consumed consumed' stored stored' sameLog
    obtain ⟨u, here, confirmed⟩ := guarded.settled.consumer id r c found consumed
    obtain ⟨u', here', confirmed'⟩ := guarded.settled.consumer id' r' c' found' consumed'
    obtain rfl := Option.some.inj (here.symm.trans stored)
    obtain rfl := Option.some.inj (here'.symm.trans stored')
    obtain rfl := unique c c' u u' stored stored' confirmed confirmed' sameLog
    obtain ⟨claims, sound⟩ := guarded.settled.sound
    exact sound.consumer_unique id id' r r' c found found' consumed consumed'

/-! ## Shallow confirmations, deep reorganisations -/

/-- Reorganisations may reach as deep as `sampleIngest` confirms. -/
def shallowSettings : TrackerSettings := ⟨1, 100, 0, {}⟩

/-- A branch from the first block on that has the payment in its third block. -/
def lateBranch : Nodes :=
  ⟨[sampleBlock 1 "0x01" "0x00" [], sampleBlock 2 "0xb2" "0x01" [],
    sampleBlock 3 "0xb3" "0xb2" [samplePayment], sampleBlock 4 "0xb4" "0xb3" []]⟩

/-- The block of the payment is taken back, and the payment is met again and confirmed. -/
def voyageRound : List Act :=
  voyageOut ++ [.advance lateBranch 4] ++ .replicate 4 (.apply lateBranch sampleLease)

/-- Two transfers stand for one log, and these are their statuses. -/
def hasPair (status status' : TransferStatus) (s : Session) : Bool :=
  s.ledger.transfers.values.any fun t => s.ledger.transfers.values.any fun t' =>
    t.status == status && t'.status == status' && t.movement? == t'.movement? &&
      t.id != t'.id

theorem exists_of_hasPair {status status' : TransferStatus}
    (has : s.hasPair status status' = true) :
    ∃ id id' t t', s.ledger.transfers.get? id = some t ∧
      s.ledger.transfers.get? id' = some t' ∧
      t.status = status ∧ t'.status = status' ∧ t.movement? = t'.movement? ∧
        id ≠ id' := by
  obtain ⟨t, member, has⟩ := List.any_eq_true.1 has
  obtain ⟨t', member', has⟩ := List.any_eq_true.1 has
  simp only [Bool.and_eq_true, beq_iff_eq, bne_iff_ne] at has
  obtain ⟨⟨⟨isStatus, isStatus'⟩, sameLog⟩, differ⟩ := has
  obtain ⟨id, stored⟩ := Table.mem_values_iff.1 member
  obtain ⟨id', stored'⟩ := Table.mem_values_iff.1 member'
  refine ⟨id, id', t, t', stored, stored', isStatus, isStatus', sameLog, ?_⟩
  rintro rfl
  exact differ (congrArg Transfer.id (Option.some.inj (stored.symm.trans stored')))

/-- The block of a payment is taken back while its transfer is pending, and
another block brings the same log again.  The new transfer is confirmed, and no
other one of this log. -/
theorem credited_once_voyage : ∃ s, Run sampleIngest sampleCatalog
    (start sampleIngest shallowSettings) s ∧
      ∃ id id' t t', s.ledger.transfers.get? id = some t ∧
      s.ledger.transfers.get? id' = some t' ∧ t.status = .confirmed ∧
        t'.status = .reverted ∧
      t.movement? = t'.movement? ∧ id ≠ id' ∧
        ∀ other u, s.ledger.transfers.get? other = some u →
        u.status = .confirmed → t.movement? = u.movement? → id = other := by
  have played : (voyageRound.foldlM (act sampleIngest sampleCatalog)
      (start sampleIngest shallowSettings)).any (hasPair .confirmed .reverted) =
        true := by
    decide +kernel
  obtain ⟨s, reached, has⟩ := (Option.any_eq_true _ _).1 played
  obtain ⟨id, id', t, t', stored, stored', confirmed, reverted, sameLog, differ⟩ :=
    exists_of_hasPair has
  obtain ⟨unique, -, -⟩ :=
    credited_once listed_sampleCatalog (by decide) (by decide) (run_of_play reached)
  exact ⟨s, run_of_play reached, id, id', t, t', stored, stored', confirmed,
    reverted, sameLog, differ,
    fun other u there final => unique id other t u stored there confirmed final⟩

/-- Every log of the branch that the nodes tell is in one of its blocks only. -/
def Act.IsUnrepeated : Act → Prop
  | .acquire .. => True
  | .advance n _ | .apply n _ =>
    ∀ b ∈ n.blocks, ∀ b' ∈ n.blocks, ∀ tx ∈ b.2, ∀ tx' ∈ b'.2,
      tx.hash = tx'.hash → tx.index = tx'.index → b.1 = b'.1

instance : DecidablePred Act.IsUnrepeated := fun a => by
  cases a <;> simp only [Act.IsUnrepeated] <;> infer_instance

/-- The payment is confirmed, and then the nodes go over to a branch that has it later. -/
def voyageAstray : List Act :=
  voyageOut ++
    [.advance homeBranch 3, .apply homeBranch sampleLease, .advance lateBranch 4,
      .apply lateBranch sampleLease, .apply lateBranch sampleLease,
      .apply lateBranch sampleLease, .apply lateBranch sampleLease]

/-- A chain that confirms at once and may be reorganised two blocks deep. -/
def hastyChain : ChainSettings :=
  { chain := ⟨1⟩
    name := "main"
    confirmationDepth := 1
    maxReorgDepth := 2
    providers := [⟨"http://node", none⟩] }

def hastySettings : Settings :=
  { logLevel := "info"
    logDirectory := "logs"
    logFile := "paywatch"
    useJson := false
    rotation := "daily"
    chains := [hastyChain]
    targetsPath := "targets.yaml" }

/-- Settings that pass their check do not suffice:  where reorganisations may
reach below confirmed transfers, a payment that comes back in another block is
confirmed for a second time. -/
theorem movement_may_be_credited_twice : ¬ ∀ (settings : Settings) (w : Worker)
    (entries : List TargetEntry) (catalog : Catalog) (acts : List Act) (s : Session),
    settings.check = .ok () → w ∈ settings.workers →
      Catalog.ofEntries entries = .ok catalog →
    (∀ a ∈ acts, a.IsUnrepeated) →
    acts.foldlM (act w.ingest catalog) (start w.ingest w.tracker) = some s →
    ∀ id id' t t', s.ledger.transfers.get? id = some t →
      s.ledger.transfers.get? id' = some t' →
      t.status = .confirmed → t'.status = .confirmed → t.movement? = t'.movement? →
      id = id' := by
  intro claim
  let w : Worker := .ofSettings hastySettings.engine hastyChain
  have played : (voyageAstray.foldlM (act w.ingest sampleCatalog)
      (start w.ingest w.tracker)).any (hasPair .confirmed .confirmed) =
        true := by decide +kernel
  obtain ⟨s, reached, has⟩ := (Option.any_eq_true _ _).1 played
  obtain ⟨id, id', t, t', stored, stored', confirmed, confirmed', sameLog, differ⟩ :=
    exists_of_hasPair has
  exact differ
    (claim hastySettings w _ sampleCatalog voyageAstray s rfl (List.mem_singleton.2 rfl)
    listed_sampleCatalog (by decide +kernel) reached id id' t t' stored stored' confirmed
    confirmed' sameLog)

end Session

end Paywatch
