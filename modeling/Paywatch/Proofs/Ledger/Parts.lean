import Mathlib.Data.Set.BooleanAlgebra
import Paywatch.Proofs.Ledger.Commit
import Paywatch.Proofs.Ledger.Consumers

/-!
# Parts of a ledger

The tables of the ledger are shared by all chains.  A part picks some chains, and some
transfers, dedupe keys, orders and routes.  A batch that keeps to a part reads and
writes nothing outside of it:  ledgers that agree on the part answer it alike and
agree on the part afterwards, and the rest of the ledger stays as it is.  So of two
batches that keep to parts without anything in common, neither notices whether the
other one was committed before.
-/

namespace Paywatch

/-- Some of what a ledger knows. -/
structure Part where
  chains : Set ChainId
  transfers : Set TransferId
  /-- Dedupe keys. -/
  keys : Set String
  orders : Set OrderId
  routes : Set RouteId

namespace Part

/-- All the rest. -/
def rest (p : Part) : Part := ⟨p.chainsᶜ, p.transfersᶜ, p.keysᶜ, p.ordersᶜ, p.routesᶜ⟩

@[simp] theorem rest_rest (p : Part) : p.rest.rest = p := by
  simp only [rest, compl_compl]

end Part

/-- One part lies within another. -/
structure Part.Within (p q : Part) : Prop where
  chains : p.chains ⊆ q.chains
  transfers : p.transfers ⊆ q.transfers
  keys : p.keys ⊆ q.keys
  orders : p.orders ⊆ q.orders
  routes : p.routes ⊆ q.routes

/-- The batch concerns nothing outside of the part. -/
structure Batch.KeepsTo (p : Part) (b : Batch) : Prop where
  chain : b.chain ∈ p.chains
  events : ∀ e ∈ b.events, e.chain ∈ p.chains
  writes : ∀ w ∈ b.writes, w.transfer.id ∈ p.transfers
  keys : ∀ t, .insert t ∈ b.writes → t.dedupeKey ∈ p.keys
  claims : ∀ k ∈ b.claims, k.routeId ∈ p.routes ∧ k.orderId ∈ p.orders ∧
    k.transferId ∈ p.transfers
  deposits : ∀ d ∈ b.deposits, d.transferId ∈ p.transfers

theorem Batch.KeepsTo.within {p q : Part} {b : Batch} (keeps : b.KeepsTo p)
    (within : p.Within q) : b.KeepsTo q where
  chain := within.chains keeps.chain
  events e member := within.chains (keeps.events e member)
  writes w member := within.transfers (keeps.writes w member)
  keys t member := within.keys (keeps.keys t member)
  claims k member := by
    obtain ⟨route, order, transfer⟩ := keeps.claims k member
    exact ⟨within.routes route, within.orders order, within.transfers transfer⟩
  deposits d member := within.transfers (keeps.deposits d member)

namespace Ledger

/-- The recorded events of a chain, in the order in which they were recorded. -/
def eventsUnder (l : Ledger) (chain : ChainId) : Table EventKey ChainEvent :=
  l.events.filter fun k _ => k.chain == chain

/-- Every event is recorded under its own key. -/
def EventsKeyed (l : Ledger) : Prop := ∀ k e, l.events.get? k = some e → e.key = k

/-- Two ledgers are the same as far as a part goes.  Of routes and deposits that also
takes in those of its transfers. -/
structure Agree (p : Part) (l m : Ledger) : Prop where
  now : l.now = m.now
  leases : l.leases = m.leases
  watermarks : ∀ c ∈ p.chains, l.watermarks.get? c = m.watermarks.get? c
  recent : ∀ c ∈ p.chains, ∀ h, l.recent.get? (c, h) = m.recent.get? (c, h)
  events : ∀ c ∈ p.chains, l.eventsUnder c = m.eventsUnder c
  orphans : ∀ c ∈ p.chains, l.orphansOf c = m.orphansOf c
  transfers : ∀ id ∈ p.transfers, l.transfers.get? id = m.transfers.get? id
  recorded : ∀ key ∈ p.keys, l.recorded.get? key = m.recorded.get? key
  orders : ∀ id ∈ p.orders, l.orders.get? id = m.orders.get? id
  routes : ∀ id ∈ p.routes, l.routes.get? id = m.routes.get? id
  consumed : ∀ id r t, r.consumedBy = some t → t ∈ p.transfers →
    (l.routes.get? id = some r ↔ m.routes.get? id = some r)
  deposits : ∀ id d, d.transferId ∈ p.transfers →
    (l.deposits.get? id = some d ↔ m.deposits.get? id = some d)

namespace Agree

variable {p : Part} {l m n : Ledger}

theorem refl (p : Part) (l : Ledger) : Agree p l l :=
  ⟨rfl, rfl, fun _ _ => rfl, fun _ _ _ => rfl, fun _ _ => rfl, fun _ _ => rfl,
    fun _ _ => rfl,
    fun _ _ => rfl, fun _ _ => rfl, fun _ _ => rfl, fun _ _ _ _ _ => Iff.rfl,
    fun _ _ _ => Iff.rfl⟩

theorem symm (agree : Agree p l m) : Agree p m l where
  now := agree.now.symm
  leases := agree.leases.symm
  watermarks c member := (agree.watermarks c member).symm
  recent c member h := (agree.recent c member h).symm
  events c member := (agree.events c member).symm
  orphans c member := (agree.orphans c member).symm
  transfers id member := (agree.transfers id member).symm
  recorded key member := (agree.recorded key member).symm
  orders id member := (agree.orders id member).symm
  routes id member := (agree.routes id member).symm
  consumed id r t consumed member := (agree.consumed id r t consumed member).symm
  deposits id d member := (agree.deposits id d member).symm

theorem trans (first : Agree p l m) (second : Agree p m n) : Agree p l n where
  now := first.now.trans second.now
  leases := first.leases.trans second.leases
  watermarks c member := (first.watermarks c member).trans (second.watermarks c member)
  recent c member h := (first.recent c member h).trans (second.recent c member h)
  events c member := (first.events c member).trans (second.events c member)
  orphans c member := (first.orphans c member).trans (second.orphans c member)
  transfers id member := (first.transfers id member).trans (second.transfers id member)
  recorded key member := (first.recorded key member).trans (second.recorded key member)
  orders id member := (first.orders id member).trans (second.orders id member)
  routes id member := (first.routes id member).trans (second.routes id member)
  consumed id r t consumed member :=
    (first.consumed id r t consumed member).trans (second.consumed id r t consumed member)
  deposits id d member := (first.deposits id d member).trans (second.deposits id d member)

theorem isClaimed (agree : Agree p l m) {t : TransferId} (member : t ∈ p.transfers) :
    l.isClaimed t = m.isClaimed t := by
  rw [Bool.eq_iff_iff, isClaimed_iff, isClaimed_iff]
  constructor
  · rintro ⟨id, r, found, consumed⟩
    exact ⟨id, r, (agree.consumed id r t consumed member).1 found, consumed⟩
  · rintro ⟨id, r, found, consumed⟩
    exact ⟨id, r, (agree.consumed id r t consumed member).2 found, consumed⟩

end Agree

/-! ## What a batch makes of ledgers that agree -/

section Local

variable {p : Part} {l m : Ledger}

/-- The step by step changes of ledgers that agree, where each step lets them agree. -/
theorem Agree.foldl {α : Type} {step : Ledger → α → Ledger} {xs : List α}
    (each : ∀ x ∈ xs, ∀ l m, Agree p l m → Agree p (step l x) (step m x))
    (agree : Agree p l m) : Agree p (xs.foldl step l) (xs.foldl step m) := by
  induction xs generalizing l m with
  | nil => exact agree
  | cons x rest ih =>
      rw [List.forall_mem_cons] at each
      exact ih each.2 (each.1 l m agree)

theorem eventsUnder_writeEvent (l : Ledger) (e : ChainEvent) (c : ChainId) :
    (l.writeEvent e).eventsUnder c =
      if e.chain == c then (l.eventsUnder c).insertNew e.key e else l.eventsUnder c :=
  Table.filter_insertNew l.events (fun k => k.chain == c) e.key e

theorem Agree.writeEvent (agree : Agree p l m) (e : ChainEvent) :
    Agree p (l.writeEvent e) (m.writeEvent e) :=
  { agree with
    events := by
      intro c member
      rw [eventsUnder_writeEvent, eventsUnder_writeEvent, agree.events c member] }

theorem Agree.writeTransfer (agree : Agree p l m) {w : TransferWrite}
    (key : ∀ t, w = .insert t → t.dedupeKey ∈ p.keys) :
    Agree p (l.writeTransfer w) (m.writeTransfer w) := by
  cases w with
  | update t expected =>
      exact
        { agree with
          transfers := by
            intro id member
            simp only [Ledger.writeTransfer, Table.get?_insert,
              agree.transfers id member] }
  | insert t =>
      have known : l.recorded.contains t.dedupeKey = m.recorded.contains t.dedupeKey := by
        rw [Table.contains, Table.contains, agree.recorded _ (key t rfl)]
      simp only [Ledger.writeTransfer, known]
      split
      · exact agree
      · exact
          { agree with
            transfers := by
              intro id member
              simp only [Table.get?_insert, agree.transfers id member]
            recorded := by
              intro key member
              simp only [Table.get?_insert, agree.recorded key member] }

theorem Agree.writeClaim (agree : Agree p l m) {c : Claim}
    (route : c.routeId ∈ p.routes) :
    Agree p (l.writeClaim c) (m.writeClaim c) :=
  { agree with
    orders := by
      intro id member
      rw [orders_writeClaim, orders_writeClaim, agree.orders id member]
    routes := by
      intro id member
      rw [routes_writeClaim, routes_writeClaim, agree.routes id member]
    consumed := by
      intro id r t consumed member
      rw [routes_writeClaim, routes_writeClaim]
      split
      · rename_i here
        rw [← here, agree.routes _ route]
      · exact agree.consumed id r t consumed member }

theorem any_deposits {l : Ledger} {f : Deposit → Bool} :
    l.deposits.values.any f = true ↔ ∃ id d, l.deposits.get? id = some d ∧
      f d = true := by
  rw [List.any_eq_true]
  constructor
  · rintro ⟨d, member, passes⟩
    obtain ⟨id, found⟩ := Table.mem_values_iff.1 member
    exact ⟨id, d, found, passes⟩
  · rintro ⟨id, d, found, passes⟩
    exact ⟨d, Table.mem_values_iff.2 ⟨id, found⟩, passes⟩

theorem Agree.writeDeposit (agree : Agree p l m) {d : Deposit}
    (transfer : d.transferId ∈ p.transfers) :
    Agree p (l.writeDeposit d) (m.writeDeposit d) := by
  have known : (l.deposits.values.any fun e =>
        e.trackerId == d.trackerId && e.transferId == d.transferId) =
      m.deposits.values.any fun e =>
        e.trackerId == d.trackerId && e.transferId == d.transferId := by
    rw [Bool.eq_iff_iff, any_deposits, any_deposits]
    simp only [Bool.and_eq_true, beq_iff_eq]
    constructor
    · rintro ⟨id, e, found, tracker, same⟩
      exact ⟨id, e, (agree.deposits id e (same ▸ transfer)).1 found, tracker, same⟩
    · rintro ⟨id, e, found, tracker, same⟩
      exact ⟨id, e, (agree.deposits id e (same ▸ transfer)).2 found, tracker, same⟩
  simp only [Ledger.writeDeposit, known]
  split
  · exact agree
  · exact
      { agree with
        deposits := by
          intro id e member
          simp only [Table.get?_insert]
          split
          · exact Iff.rfl
          · exact agree.deposits id e member }

/-- The orphans of a chain that a range adds are told by the recorded
events of the chain. -/
theorem orphansOf_revertRange (keyed : EventsKeyed l) (chain c : ChainId)
    (range : RevertedRange) :
    (l.revertRange chain range).orphansOf c = l.orphansOf c ++
      (l.eventsUnder c).values.filter fun e => e.chain == chain &&
        range.contains e.blockHeight := by
  simp only [orphansOf, revertRange, List.filter_append, eventsUnder, Table.values,
    Table.entries_filter, List.filter_map, List.filter_filter]
  congr 2
  refine List.filter_congr fun entry member => ?_
  have key := keyed entry.1 entry.2 (Table.mem_entries_iff.1 member)
  rw [← key]
  exact Bool.and_comm _ _

theorem Agree.revertRange (agree : Agree p l m) (lKeyed : EventsKeyed l)
    (mKeyed : EventsKeyed m) (chain : ChainId) (range : RevertedRange) :
    Agree p (l.revertRange chain range) (m.revertRange chain range) :=
  { agree with
    recent := by
      intro c member h
      simp only [Ledger.revertRange, Table.get?_filter, agree.recent c member h]
    events := by
      intro c member
      have same : l.events.filter _ = m.events.filter _ := agree.events c member
      simp only [eventsUnder, Ledger.revertRange]
      rw [Table.filter_comm, same, Table.filter_comm]
    orphans := by
      intro c member
      rw [orphansOf_revertRange lKeyed, orphansOf_revertRange mKeyed,
        agree.orphans c member, agree.events c member] }

theorem Agree.advance (agree : Agree p l m) (chain : ChainId) (target : BlockRef) :
    Agree p (l.advance chain target) (m.advance chain target) :=
  { agree with
    watermarks := by
      intro c member
      simp only [Ledger.advance, Table.get?_insert, agree.watermarks c member]
    recent := by
      intro c member h
      simp only [Ledger.advance, Table.get?_filter, Table.get?_insert,
        agree.recent c member h] }

end Local

/-! ## Whether a batch is accepted, and what then -/

section Commit

variable {p : Part} {l m : Ledger} {b : Batch}

/-- All that a commit checks; tells whether the watermark moves. -/
def admits (l : Ledger) (b : Batch) : Except LedgerError Bool := do
  l.checkLease b.lease
  b.writes.forM l.checkWrite
  b.claims.forM l.checkClaim
  b.advances (l.watermark b.chain) (l.recordedHash? b.chain b.target.height)

/-- The ledger with the contents of a batch. -/
def filled (l : Ledger) (b : Batch) : Ledger :=
  let events := b.events.foldl writeEvent (l.takenBack b)
  (b.writes.foldl writeTransfer events).writePlan b.claims b.deposits

/-- All that a commit changes. -/
def applied (l : Ledger) (b : Batch) (moves : Bool) : Ledger :=
  if moves then (l.filled b).advance b.chain b.target else l.filled b

theorem commit_eq (l : Ledger) (b : Batch) :
    l.commit b = (l.admits b).map (l.applied b) := by
  simp only [commit, admits]
  cases l.checkLease b.lease with
  | error e => rfl
  | ok u =>
      cases b.writes.forM l.checkWrite with
      | error e => rfl
      | ok u =>
          cases b.claims.forM l.checkClaim with
          | error e => rfl
          | ok u => cases b.advances _ _ <;> rfl

/-- What the commit of a batch is answered. -/
def verdict (l : Ledger) (b : Batch) : Except LedgerError Unit :=
  (l.perform (.commit b)).1

/-- The ledger after a batch was to be committed. -/
def following (l : Ledger) (b : Batch) : Ledger := (l.perform (.commit b)).2

theorem verdict_eq (l : Ledger) (b : Batch) :
    l.verdict b = (l.admits b).map fun _ => () := by
  simp only [verdict, perform, attempt, commit_eq]
  cases l.admits b <;> rfl

theorem following_of_ok {moves : Bool} (ok : l.admits b = .ok moves) :
    l.following b = l.applied b moves := by
  simp only [following, perform, attempt, commit_eq, ok, Except.map]

theorem following_of_error {e : LedgerError} (refused : l.admits b = .error e) :
    l.following b = l := by
  simp only [following, perform, attempt, commit_eq, refused, Except.map]

theorem claimable_of_admits {moves : Bool} (ok : l.admits b = .ok moves) :
    ∀ k ∈ b.claims, l.checkClaim k = .ok () := by
  have accepted : l.commit b = .ok (l.applied b moves) := by
    rw [commit_eq, ok]
    rfl
  exact (committed_of_commit accepted).claimable

/-- Ledgers that agree on the part of a batch check it alike. -/
theorem Agree.admits (agree : Agree p l m) (keeps : b.KeepsTo p) :
    l.admits b = m.admits b := by
  have lease : l.holds b.lease = m.holds b.lease := by
    unfold holds
    rw [agree.now, agree.leases]
  have writes : b.writes.forM l.checkWrite = b.writes.forM m.checkWrite := by
    refine forM_congr fun w member => ?_
    cases w with
    | insert t => rfl
    | update t expected =>
        simp only [checkWrite, agree.transfers t.id (keeps.writes _ member)]
  have claims : b.claims.forM l.checkClaim = b.claims.forM m.checkClaim := by
    refine forM_congr fun k member => ?_
    obtain ⟨route, order, transfer⟩ := keeps.claims k member
    simp only [checkClaim, agree.routes _ route, agree.orders _ order,
      agree.isClaimed transfer]
  simp only [Ledger.admits, checkLease, lease, writes, claims, watermark, recordedHash?,
    agree.watermarks _ keeps.chain, agree.recent _ keeps.chain]

theorem Agree.filled (agree : Agree p l m) (keeps : b.KeepsTo p) (lKeyed : EventsKeyed l)
    (mKeyed : EventsKeyed m) : Agree p (l.filled b) (m.filled b) := by
  have start : Agree p (l.takenBack b) (m.takenBack b) := by
    unfold takenBack
    split
    · exact agree.revertRange lKeyed mKeyed _ _
    · exact agree
  refine Agree.foldl
    (fun d member _ _ agree => agree.writeDeposit (keeps.deposits d member)) ?_
  refine Agree.foldl
    (fun k member _ _ agree => agree.writeClaim (keeps.claims k member).1) ?_
  refine Agree.foldl (fun w member _ _ agree => ?_) ?_
  · exact agree.writeTransfer fun t same => keeps.keys t (same ▸ member)
  · exact start.foldl fun e _ _ _ agree => agree.writeEvent e

theorem Agree.applied (agree : Agree p l m) (keeps : b.KeepsTo p) (lKeyed : EventsKeyed l)
    (mKeyed : EventsKeyed m) (moves : Bool) :
    Agree p (l.applied b moves) (m.applied b moves) := by
  have full := agree.filled keeps lKeyed mKeyed
  cases moves with
  | false => exact full
  | true => exact full.advance _ _

/-- Ledgers that agree on the part of a batch answer it alike, and agree
on the part afterwards. -/
theorem Agree.commit (agree : Agree p l m) (keeps : b.KeepsTo p) (lKeyed : EventsKeyed l)
    (mKeyed : EventsKeyed m) :
    l.verdict b = m.verdict b ∧ Agree p (l.following b) (m.following b) := by
  have same := agree.admits keeps
  refine ⟨by rw [verdict_eq, verdict_eq, same], ?_⟩
  cases admitted : l.admits b with
  | error e =>
      rw [following_of_error admitted, following_of_error (same ▸ admitted)]
      exact agree
  | ok moves =>
      rw [following_of_ok admitted, following_of_ok (same ▸ admitted)]
      exact agree.applied keeps lKeyed mKeyed moves

end Commit

end Ledger

end Paywatch
