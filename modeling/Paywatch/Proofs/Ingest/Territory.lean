import Paywatch.Proofs.Ingest.Proposal
import Paywatch.Proofs.Ingest.Recorded
import Paywatch.Proofs.Ledger.Apart
import Paywatch.Proofs.Order.Destinations

/-!
# What the pipeline of a chain touches

A pipeline reads the pending transfers of its chain, makes new ones of the events of
its chain, and settles what they pay into.  A route is on the chain of its token and
its order asks for that token, so the claims stay with the routes and orders of the
chain as well.  Whatever the pipeline comes to commit keeps to the part of the ledger
that belongs to its chain.
-/

namespace Paywatch

/-- Only identifiers are used up by what commits nothing. -/
theorem idle_permits : Idle Surroundings.Permits Quiet where
  refl := Quiet.refl
  trans _ _ _ := Quiet.trans
  mute := by
    intro s c reply after mute permitted
    cases c with
    | ledger c =>
        obtain ⟨-, rfl⟩ := permitted
        exact ⟨Ledger.perform_asks s.ledger mute, List.Subset.refl _⟩
    | stamp =>
        obtain ⟨-, rfl⟩ := permitted
        exact ⟨rfl, List.subset_cons_self _ _⟩
    | _ =>
        obtain rfl := (show after = s from permitted)
        exact Quiet.refl after
  commit := by
    rintro s batch e after ⟨refused, rfl⟩
    exact ⟨Ledger.attempt_refused refused.symm, List.Subset.refl _⟩
  commitPlan := by
    rintro s writes plan e after ⟨refused, rfl⟩
    exact ⟨Ledger.attempt_refused refused.symm, List.Subset.refl _⟩

/-- The identifiers that were given out on the way. -/
def given (s after : Surroundings) : Set Ulid := {u | u ∈ after.issued ∧ u ∉ s.issued}

theorem Stamped.mem_given {s after : Surroundings} {stamp : Stamp}
    (stamped : Stamped Surroundings.Permits Quiet s after stamp) :
    stamp.ulid ∈ given s after := by
  obtain ⟨before, since, earlier, ⟨fresh, rfl⟩, later⟩ := stamped
  exact ⟨later.issued List.mem_cons_self, fun old => fresh (earlier.issued old)⟩

/-- What is stored has its own identifier, which was given out, events have their keys,
and every route is on the chain of its token, for which its order asks. -/
structure Surroundings.Orderly (s : Surroundings) : Prop where
  events : s.ledger.EventsKeyed
  transfers : ∀ id t, s.ledger.transfers.get? id = some t → t.id = id ∧ id.ulid ∈ s.issued
  deposits : ∀ id d, s.ledger.deposits.get? id = some d → id.ulid ∈ s.issued
  filed : s.ledger.Filed
  routes : ∀ id r, s.ledger.routes.get? id = some r →
    r.destination.chain = r.token.chain ∧
    ∃ o, s.ledger.orders.get? r.orderId = some o ∧ o.token = r.token

/-- What belongs to a chain, with the identifiers that are given out for it on the way. -/
def Part.ofChain (s after : Surroundings) (chain : ChainId) : Part where
  chains := {chain}
  transfers := {id | (∃ t, s.ledger.transfers.get? id = some t ∧ t.chain = chain) ∨
    id.ulid ∈ given s after}
  keys := {key | chain.Opens key}
  orders := {id | ∃ o, s.ledger.orders.get? id = some o ∧ o.token.chain = chain}
  routes := {id | ∃ r, s.ledger.routes.get? id = some r ∧ r.token.chain = chain}

/-- The transfer is one of the part, and of its chain by its token or by the
block it was seen in. -/
structure Transfer.BelongsTo (t : Transfer) (p : Part) (chain : ChainId) : Prop where
  id : t.id ∈ p.transfers
  chain : t.chain = chain ∨ ∃ o, t.origin = .blockchain o ∧ o.chain = chain

theorem Transfer.BelongsTo.confirmed {t u : Transfer} {p : Part} {chain : ChainId}
    {depth : UInt64} {head : Height} {now : Instant} (belongs : u.BelongsTo p chain)
    (confirmed : u.confirmDue? depth head now = some t) : t.BelongsTo p chain := by
  have changed := confirmedAs_of_due confirmed
  refine ⟨changed.id ▸ belongs.id, ?_⟩
  rw [Transfer.chain, changed.token, changed.origin]
  exact belongs.chain

namespace Surroundings.Orderly

variable {s after : Surroundings} {chain : ChainId} {t : Transfer}

theorem belongsTo_of_stored (orderly : s.Orderly) (after : Surroundings)
    (stored : t ∈ s.ledger.transfers.values) (ofChain : t.chain = chain) :
    t.BelongsTo (.ofChain s after chain) chain := by
  obtain ⟨id, found⟩ := Table.mem_values_iff.1 stored
  obtain ⟨rfl, -⟩ := orderly.transfers id t found
  exact ⟨Or.inl ⟨t, found, ofChain⟩, Or.inl ofChain⟩

/-- A transfer of a chain settles routes of the chain. -/
theorem settles_own (orderly : s.Orderly)
    (belongs : t.BelongsTo (.ofChain s after chain) chain) {r : Route}
    (stored : r ∈ s.ledger.routes.values)
    (paysInto : MatchKey.ofTransfer? t = some r.destination.matchKey)
    (token : r.token = t.token) :
    r.id ∈ (Part.ofChain s after chain).routes ∧
      r.orderId ∈ (Part.ofChain s after chain).orders := by
  obtain ⟨id, found⟩ := Table.mem_values_iff.1 stored
  obtain ⟨rfl, -⟩ := orderly.filed.route id r found
  obtain ⟨destination, o, placed, asks⟩ := orderly.routes r.id r found
  have ofChain : r.token.chain = chain := by
    rcases belongs.chain with own | ⟨origin, seen, rfl⟩
    · rw [token]
      exact own
    · rw [← destination]
      exact MatchKey.chain_of_ofTransfer? seen paysInto
  exact ⟨⟨r, found, ofChain⟩, ⟨o, placed, asks ▸ ofChain⟩⟩

end Surroundings.Orderly

/-- The parts of different chains have nothing in common, if no identifier
is given out for both. -/
theorem Part.ofChain_within_rest {s first second : Surroundings} {a b : ChainId}
    (orderly : s.Orderly) (different : a ≠ b)
    (apart : ∀ u ∈ given s first, u ∉ given s second) :
    (Part.ofChain s second b).Within (Part.ofChain s first a).rest where
  chains := by
    rintro _ rfl same
    exact different same.symm
  transfers := by
    rintro id (⟨t, found, ofChain⟩ | new) (⟨u, found', ofChain'⟩ | new')
    · cases found.symm.trans found'
      exact different (ofChain'.symm.trans ofChain)
    · exact new'.2 (orderly.transfers id t found).2
    · exact new.2 (orderly.transfers id u found').2
    · exact apart _ new' new
  keys := fun key opens opens' => different (opens'.unique opens)
  orders := by
    rintro id ⟨o, found, ofChain⟩ ⟨o', found', ofChain'⟩
    cases found.symm.trans found'
    exact different (ofChain'.symm.trans ofChain)
  routes := by
    rintro id ⟨r, found, ofChain⟩ ⟨r', found', ofChain'⟩
    cases found.symm.trans found'
    exact different (ofChain'.symm.trans ofChain)

/-- A batch that the pipeline of a chain comes to commit, for a block or
for a reorganisation. -/
inductive Produces (s : Surroundings) : ChainId → Batch → Surroundings → Prop where
  | block (i : Ingest) (lease : Lease) (b : Block) (base : Bool) {batch : Batch}
      {there : Surroundings}
      (ofLease : lease.chain = i.chain) (ofBlock : b.chain = i.chain)
      (makes : (i.block lease b base).Makes Surroundings.Permits s
        (.ledger (.commit batch)) there) :
      Produces s i.chain batch there
  | revert (i : Ingest) (lease : Lease) (range : RevertedRange) {batch : Batch}
      {there : Surroundings} (ofLease : lease.chain = i.chain)
      (makes : (i.revert lease range).Makes Surroundings.Permits s
        (.ledger (.commit batch)) there) :
      Produces s i.chain batch there

namespace Ingest

variable {i : Ingest} {s there planning : Surroundings} {lease : Lease} {b : Block}
    {base : Bool}
variable {range : RevertedRange} {start : Batch}

/-- What a plan for transfers of the chain settles is of the chain, and
its deposits are new. -/
theorem plan_keepsTo (orderly : s.Orderly) (quiet : Quiet s planning)
    {confirmed : List Transfer} {plan : Plan}
    (belong : ∀ t ∈ confirmed, t.BelongsTo (.ofChain s there i.chain) i.chain)
    (leads : (i.plan confirmed).Leads Surroundings.Permits planning (.ok plan) there) :
    (∀ k ∈ plan.claims, k.routeId ∈ (Part.ofChain s there i.chain).routes ∧
      k.orderId ∈ (Part.ofChain s there i.chain).orders ∧
      k.transferId ∈ (Part.ofChain s there i.chain).transfers) ∧
    ∀ d ∈ plan.deposits, d.transferId ∈ (Part.ofChain s there i.chain).transfers ∧
      d.id.ulid ∈ given s there := by
  rcases drafted_of_plan leads with rfl | ⟨ctx, told, draft, answered, drafted, stamps⟩
  · exact ⟨by simp [Plan.empty], by simp [Plan.empty]⟩
  have start :=
    quiet.trans (idle_permits.mute _ (.ledger (.matchContext ..)) _ _ rfl answered)
  obtain ⟨rfl, -⟩ := answered
  obtain ⟨same, stamped⟩ := stamped_of_draft idle_permits stamps
  constructor
  · intro k member
    rw [same] at member
    obtain ⟨r, inContext, t, among, pays, paysInto, token⟩ :=
      MatchingRules.paysInto_of_plan drafted member
    have stored : r ∈ s.ledger.routes.values := by
      rw [← quiet.ledger]
      exact (List.mem_filter.1 inContext).1
    obtain ⟨route, order⟩ := orderly.settles_own (belong t among) stored paysInto token
    rw [pays.route, pays.order, pays.transfer]
    exact ⟨route, order, (belong t among).id⟩
  · intro d member
    obtain ⟨y, drafts, stamp, rfl, given⟩ := stamped d member
    obtain ⟨t, among, ofTransfer⟩ := MatchingRules.transfer_of_deposit drafted drafts
    refine ⟨?_, (given.prepend idle_permits start).mem_given⟩
    show y.transferId ∈ _
    rw [ofTransfer]
    exact (belong t among).id

/-- What is read of a block of the chain is new and was seen on the chain. -/
theorem fresh_of_gather {read : Surroundings} {failures : Nat} {events : List ChainEvent}
    {new : List Transfer} (ofBlock : b.chain = i.chain)
    (reads : (gather b).Leads Surroundings.Permits s (.ok (failures, events, new)) read)
    (later : Quiet read there) :
    ∀ t ∈ new, t.id.ulid ∈ given s there ∧ ∃ o, t.origin = .blockchain o ∧
      o.chain = i.chain := by
  intro t member
  obtain ⟨e, among, stamp, time, made, stamped⟩ :=
    made_of_gather idle_permits reads t member
  obtain ⟨represents, identifier⟩ := represents_of_transfer made
  refine ⟨?_, e.origin, represents.origin, (chain_of_gather reads e among).trans ofBlock⟩
  rw [identifier]
  exact (stamped.append idle_permits later).mem_given

/-- The batch of a block keeps to the part of its chain, and its deposits are new. -/
theorem proposal_keepsTo (orderly : s.Orderly) (ofLease : lease.chain = i.chain)
    (ofBlock : b.chain = i.chain)
    (p : Proposal Surroundings.Permits Quiet i (startOf lease b base) b s there) :
    p.batch.KeepsTo (.ofChain s there i.chain) ∧
      ∀ d ∈ p.batch.deposits, d.id.ulid ∈ given s there := by
  have told := idle_permits.mute _ (.ledger (.pendingTransfers _)) _ _ rfl p.pending
  have clock := idle_permits.mute _ .now _ _ trivial p.clock
  have planned := idle_permits.of_mute (only_plan i _) p.plans
  have asking := (idle_permits.of_mute (only_gather b) p.reads).trans p.waits
  have planning := asking.trans (told.trans clock)
  have isNew :=
    fresh_of_gather ofBlock p.reads (p.waits.trans ((told.trans clock).trans planned))
  have stored : ∀ u ∈ p.stored, u.BelongsTo (.ofChain s there i.chain) i.chain := by
    intro u member
    rw [p.pending.1] at member
    obtain ⟨stored, filtered⟩ := List.mem_filter.1 member
    simp only [Bool.and_eq_true, beq_iff_eq] at filtered
    exact orderly.belongsTo_of_stored there (asking.ledger ▸ stored) filtered.1.2
  have belong :
      ∀ t ∈ p.confirmation.2, t.BelongsTo (.ofChain s there i.chain) i.chain := by
    intro t member
    rcases List.mem_append.1 member with due | fresh
    · obtain ⟨u, among, confirmed⟩ := List.mem_filterMap.1 due
      exact (stored u among).confirmed confirmed
    · obtain ⟨u, among, confirmed⟩ := List.mem_filterMap.1 fresh
      obtain ⟨new, seen⟩ := isNew u among
      exact Transfer.BelongsTo.confirmed ⟨Or.inr new, Or.inr seen⟩ confirmed
  have writes :
      ∀ w ∈ p.batch.writes, w.transfer.id ∈ (Part.ofChain s there i.chain).transfers ∧
      ∀ t, w = .insert t → i.chain.Opens t.dedupeKey := by
    intro w member
    rcases mem_confirmation_writes member with
      ⟨u, among, t, confirmed, rfl⟩ | ⟨u, among, rfl⟩
    · exact ⟨((stored u among).confirmed confirmed).id, by simp⟩
    · obtain ⟨new, o, seen, ofChain⟩ := isNew u among
      obtain ⟨sameId, -, -, sameKey, -⟩ :=
        getD_confirmDue? i.depth (startOf lease b base).target.height p.now u
      refine ⟨Or.inr (sameId ▸ new), ?_⟩
      rintro _ ⟨⟩
      rw [sameKey, ← ofChain]
      exact Transfer.opens_dedupeKey seen
  obtain ⟨claims, deposits⟩ := plan_keepsTo orderly planning belong p.plans
  exact ⟨{
    chain := by
      rw [← ofLease]
      cases base <;> rfl
    events := fun e member => (chain_of_gather p.reads e member).trans ofBlock
    writes := fun w member => (writes w member).1
    keys := fun t member => (writes _ member).2 t rfl
    claims
    deposits :=
      fun d member => (deposits d member).1 }, fun d member => (deposits d member).2⟩

/-- The batch of a reorganisation keeps to the part of its chain. -/
theorem reversal_keepsTo (orderly : s.Orderly) (ofLease : lease.chain = i.chain)
    (p : Reversal Surroundings.Permits Quiet i range s there) :
    (p.batch lease).KeepsTo (.ofChain s there i.chain) where
  chain := ofLease
  events := by simp [Reversal.batch, Batch.ofRevert]
  writes := by
    intro w member
    obtain ⟨t, changed, rfl⟩ := List.mem_map.1 member
    obtain ⟨u, among, reverted⟩ := List.mem_filterMap.1 changed
    rw [p.told.1] at among
    obtain ⟨stored, filtered⟩ := List.mem_filter.1 among
    rw [Bool.and_eq_true, beq_iff_eq] at filtered
    obtain ⟨-, rfl⟩ := Transfer.revertIn?_eq_some.1 reverted
    exact (orderly.belongsTo_of_stored there (p.waits.ledger ▸ stored) filtered.1).id
  keys := by
    intro t member
    obtain ⟨u, -, same⟩ := List.mem_map.1 member
    cases same
  claims := by simp [Reversal.batch, Batch.ofRevert]
  deposits := by simp [Reversal.batch, Batch.ofRevert]

end Ingest

/-- Whatever the pipeline of a chain comes to commit keeps to the part of the chain, and
its deposits are new. -/
theorem Produces.keepsTo {s there : Surroundings} {chain : ChainId} {batch : Batch}
    (produces : Produces s chain batch there) (orderly : s.Orderly) :
    batch.KeepsTo (.ofChain s there chain) ∧
      ∀ d ∈ batch.deposits, d.id.ulid ∈ given s there := by
  cases produces with
  | block i lease b base ofLease ofBlock makes =>
      rcases Ingest.makes_block idle_permits makes with plain | ⟨p, same⟩
      · exact plain.elim
      · cases same
        exact Ingest.proposal_keepsTo orderly ofLease ofBlock p
  | revert i lease range ofLease makes =>
      rcases Ingest.makes_revert idle_permits makes with plain | ⟨p, same⟩
      · exact plain.elim
      · cases same
        exact ⟨Ingest.reversal_keepsTo orderly ofLease p,
          by simp [Ingest.Reversal.batch, Batch.ofRevert]⟩

end Paywatch
