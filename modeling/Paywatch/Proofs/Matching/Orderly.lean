import Paywatch.Proofs.Ledger.Consumers
import Paywatch.Proofs.Matching.Prudence
import Paywatch.Proofs.Transfer.Lifecycle

/-!
# An orderly ledger

What prudent calls keep true of a ledger and of the identifiers that were given out:
everything is filed under its own identifier, an open route has no consumer, a claimed
transfer that is stored is confirmed, and what a task holds is neither stored nor
claimed.  In turn such a ledger deals honestly with every task.  So one call of a
prudent task leaves things orderly for all others.
-/

namespace Paywatch

/-- In a table that files every value under its key no two values have the same one. -/
theorem Table.nodup_values {κ α : Type} [DecidableEq κ] {t : Table κ α} {key : α → κ}
    (filed : ∀ k a, t.get? k = some a → key a = k) : (t.values.map key).Nodup := by
  have same : t.values.map key = t.entries.map Prod.fst := by
    rw [values, List.map_map]
    exact List.map_congr_left fun e member => filed e.1 e.2 (mem_entries_iff.1 member)
  rw [same]
  exact t.distinct

namespace Ledger

variable {l : Ledger} {c : Call}

/-- A transfer is stored as confirmed. -/
def IsFinal (l : Ledger) (id : TransferId) : Prop :=
  ∃ t, l.transfers.get? id = some t ∧ t.status = .confirmed

/-- Transfers, routes and orders are filed under their own identifiers, and no open
route has a consumer. -/
structure Ordered (l : Ledger) : Prop where
  transfer : ∀ id t, l.transfers.get? id = some t → t.id = id
  route : ∀ id r, l.routes.get? id = some r → r.id = id
  order : ∀ id o, l.orders.get? id = some o → o.id = id
  unconsumed : ∀ id r, l.routes.get? id = some r → r.isOpen = true → r.consumedBy = none

theorem ordered_empty : Ordered .empty :=
  ⟨by simp [empty], by simp [empty], by simp [empty], by simp [empty]⟩

/-- Whatever is stored is filed under its own identifier. -/
theorem Ordered.get?_of_mem (ordered : Ordered l) {t : Transfer}
    (stored : t ∈ l.transfers.values) : l.transfers.get? t.id = some t := by
  obtain ⟨id, found⟩ := Table.mem_values_iff.1 stored
  rwa [ordered.transfer id t found]

theorem Ordered.congr {after : Ledger} (ordered : Ordered l)
    (transfers : after.transfers = l.transfers) (routes : after.routes = l.routes)
    (orders : after.orders = l.orders) : Ordered after := by
  obtain ⟨transfer, route, order, unconsumed⟩ := ordered
  exact ⟨by rwa [transfers], by rwa [routes], by rwa [orders], by rwa [routes]⟩

/-- A route after a call was there before, is consumed by a claim that the call settles,
or is inserted by it. -/
theorem route_of_perform {id : RouteId} {r : Route}
    (found : (l.perform c).2.routes.get? id = some r) :
    (∃ s, l.routes.get? id = some s ∧
      (r = s ∨ ∃ k ∈ c.settled l, r = s.consume k.transferId)) ∨
      c = .insertRoute r ∧ r.id = id := by
  have booked : ∀ {writes batch}, Booked l writes batch (l.perform c).2 →
    batch = c.settled l →
      ∃ s, l.routes.get? id = some s ∧
      (r = s ∨ ∃ k ∈ c.settled l, r = s.consume k.transferId) := by
    intro writes batch booked same
    rw [booked.routes, same] at found
    obtain ⟨s, before, change⟩ := routes_foldl_writeClaim found
    exact ⟨s, before, change.imp_right fun ⟨k, settled, _, consumed⟩ =>
      ⟨k, settled, consumed⟩⟩
  cases c with
  | commit b => exact Or.inl (booked (booked_commit l b) rfl)
  | commitPlan writes p => exact Or.inl (booked (booked_commitPlan l writes p) rfl)
  | insertRoute s =>
      change (l.routes.insert s.id s).get? id = some r at found
      rw [Table.get?_insert] at found
      split at found
      · rename_i here
        obtain rfl := Option.some.inj found
        exact Or.inr ⟨rfl, here⟩
      · exact Or.inl ⟨r, found, Or.inl rfl⟩
  | _ =>
      rw [(routes_transfers_perform l rfl).1] at found
      exact Or.inl ⟨r, found, Or.inl rfl⟩

/-- Whatever is claimed after a call was claimed before, or is claimed by the call. -/
theorem isClaimed_perform (newRoute : ∀ r, c = .insertRoute r → r.IsNew) {id : TransferId}
    (claimed : (l.perform c).2.isClaimed id = true) :
    l.isClaimed id = true ∨ ∃ k ∈ c.settled l, k.transferId = id := by
  obtain ⟨routeId, r, found, consumer⟩ := isClaimed_iff.1 claimed
  rcases route_of_perform found with ⟨s, before, rfl | ⟨k, settled, rfl⟩⟩ | ⟨inserted, -⟩
  · exact Or.inl (isClaimed_iff.2 ⟨routeId, r, before, consumer⟩)
  · exact Or.inr ⟨k, settled, Option.some.inj consumer⟩
  · rw [(newRoute r inserted).unconsumed] at consumer
    cases consumer

theorem order_perform (filed : ∀ id o, l.orders.get? id = some o → o.id = id)
    {id : OrderId} {o : Order} (found : (l.perform c).2.orders.get? id = some o) :
    o.id = id := by
  have booked : ∀ {writes batch}, Booked l writes batch (l.perform c).2 → o.id = id := by
    intro writes batch booked
    rw [booked.orders] at found
    obtain ⟨p, before, sameId⟩ := id_of_orders_foldl_writeClaim found
    exact sameId.symm.trans (filed id p before)
  cases c with
  | commit b => exact booked (booked_commit l b)
  | commitPlan writes p => exact booked (booked_commitPlan l writes p)
  | insertOrder p =>
      change (l.orders.insert p.id p).get? id = some o at found
      rw [Table.get?_insert] at found
      split at found
      · rename_i here
        obtain rfl := Option.some.inj found
        exact here
      · exact filed id o found
  | expireOrder expiring =>
      simp only [perform] at found
      cases expired : l.expireOrder expiring with
      | error e =>
          rw [expired] at found
          exact filed id o found
      | ok result =>
          rw [expired] at found
          rcases expireOrder_cases expired with ⟨p, placed, -, same⟩ | same
          · rw [same, Table.get?_insert] at found
            split at found
            · rename_i here
              obtain rfl := Option.some.inj found
              exact (filed expiring p placed).trans here
            · exact filed id o found
          · rw [same] at found
            exact filed id o found
  | insertRoute r => exact filed id o found
  | _ =>
      rw [perform_frame l rfl] at found
      exact filed id o found

theorem Ordered.perform (ordered : Ordered l)
    (newRoute : ∀ r, c = .insertRoute r → r.IsNew) : Ordered (l.perform c).2 where
  transfer := by
    intro id t found
    rcases stored_or_written found with old | ⟨w, -, rfl, named⟩
    · exact ordered.transfer id t old
    · exact named
  route := by
    intro id r found
    rcases route_of_perform found with ⟨s, before, rfl | ⟨k, -, rfl⟩⟩ | ⟨-, named⟩
    · exact ordered.route id r before
    · exact ordered.route id s before
    · exact named
  order := fun id o found => order_perform ordered.order found
  unconsumed := by
    intro id r found isOpen
    rcases route_of_perform found with ⟨s, before, rfl | ⟨k, -, rfl⟩⟩ | ⟨inserted, -⟩
    · exact ordered.unconsumed id r before isOpen
    · cases isOpen
    · exact (newRoute r inserted).unconsumed

end Ledger

/-! ## Prudent calls -/

/-- A ledger in order, with nothing stored or claimed that was not given out, and
nothing that a task holds. -/
structure Orderly (s : Surroundings) (holder : Holder) : Prop where
  ordered : s.ledger.Ordered
  steady : s.ledger.Steady
  stored : ∀ id t, s.ledger.transfers.get? id = some t → id.ulid ∈ s.issued
  claimed : ∀ id, s.ledger.isClaimed id = true → id.ulid ∈ s.issued
  held : ∀ u k, holder u = some k → u ∈ s.issued ∧ s.ledger.transfers.get? ⟨u⟩ = none ∧
    s.ledger.isClaimed ⟨u⟩ = false

theorem orderly_start : Orderly ⟨.empty, []⟩ fun _ => none where
  ordered := Ledger.ordered_empty
  steady := Ledger.steady_empty
  stored := by simp [Ledger.empty]
  claimed := by
    intro id claimed
    obtain ⟨_, _, none, -⟩ := Ledger.isClaimed_iff.1 claimed
    cases none
  held := by simp

namespace Orderly

variable {s after : Surroundings} {holder : Holder} {k : Nat} {g : Grasp}

theorem unheld (orderly : Orderly s holder) {u : Ulid} (fresh : u ∉ s.issued) :
    holder u = none :=
  Option.eq_none_iff_forall_ne_some.2 fun j held => fresh (orderly.held u j held).1

/-- New identifiers are given out to a task. -/
theorem granted (orderly : Orderly s holder) {us : List Ulid}
    (fresh : ∀ u ∈ us, u ∉ s.issued) (k : Nat) :
    Orderly { s with issued := us ++ s.issued } (holder.assign us (some k)) where
  ordered := orderly.ordered
  steady := orderly.steady
  stored id t found := List.mem_append_right _ (orderly.stored id t found)
  claimed id claimed := List.mem_append_right _ (orderly.claimed id claimed)
  held := by
    intro u j held
    rcases Holder.assign_eq_some.1 held with ⟨member, -⟩ | ⟨-, held⟩
    · refine ⟨List.mem_append_left _ member, ?_, ?_⟩
      · exact Option.eq_none_iff_forall_ne_some.2 fun t found =>
          fresh u member (orderly.stored _ t found)
      · exact Bool.eq_false_iff.2 fun claimed =>
          fresh u member (orderly.claimed ⟨u⟩ claimed)
    · obtain ⟨issued, unused⟩ := orderly.held u j held
      exact ⟨List.mem_append_right _ issued, unused⟩

/-- The ledger changes, but neither transfers nor routes nor orders. -/
theorem spared (orderly : Orderly s holder) {l : Ledger}
    (transfers : l.transfers = s.ledger.transfers) (routes : l.routes = s.ledger.routes)
    (orders : l.orders = s.ledger.orders) : Orderly { s with ledger := l } holder where
  ordered := orderly.ordered.congr transfers routes orders
  steady := orderly.steady.congr routes transfers
  stored := by simpa only [transfers] using orderly.stored
  claimed := by
    have same : ∀ id, l.isClaimed id = s.ledger.isClaimed id := fun id => by
      simp only [Ledger.isClaimed, routes]
    simpa only [same] using orderly.claimed
  held := by
    have same : ∀ id, l.isClaimed id = s.ledger.isClaimed id := fun id => by
      simp only [Ledger.isClaimed, routes]
    simpa only [same, transfers] using orderly.held

section Perform

variable (orderly : Orderly s holder) (own : g.held = holder.of k)
  (final : ∀ id ∈ g.final, s.ledger.IsFinal id) {c : Ledger.Call}
  (prudent : Prudent g (c.written s.ledger) (c.settled s.ledger))
include orderly own prudent

/-- What is inserted is neither stored nor claimed yet. -/
theorem inserted {t : Transfer} (member : .insert t ∈ c.written s.ledger) :
    t.id.ulid ∈ s.issued ∧ s.ledger.transfers.get? t.id = none ∧
      s.ledger.isClaimed t.id = false := by
  have held := prudent.held t member
  rw [own] at held
  exact orderly.held _ k held

omit orderly own in
/-- What is replaced is pending. -/
theorem updated {t : Transfer} {expected : TransferStatus}
    (member : .update t expected ∈ c.written s.ledger) :
    ∃ u, s.ledger.transfers.get? t.id = some u ∧ u.status = .pending := by
  obtain ⟨u, found, same⟩ := Ledger.stored_of_updated member
  exact ⟨u, found, same.trans (prudent.pending t expected member)⟩

/-- Nothing is written over that is claimed or confirmed, or that was not given out. -/
theorem written {w : TransferWrite} (member : w ∈ c.written s.ledger) :
    s.ledger.isClaimed w.transfer.id = false ∧ ¬ s.ledger.IsFinal w.transfer.id ∧
      w.transfer.id.ulid ∈ s.issued := by
  cases w with
  | insert t =>
      obtain ⟨issued, unstored, unclaimed⟩ := orderly.inserted own prudent member
      refine ⟨unclaimed, ?_, issued⟩
      rintro ⟨u, found, -⟩
      rw [TransferWrite.transfer, unstored] at found
      cases found
  | update t expected =>
      obtain ⟨u, found, pending⟩ := updated prudent member
      refine ⟨Bool.eq_false_iff.2 fun claimed => ?_, ?_, orderly.stored _ u found⟩
      · obtain ⟨id, r, there, consumer⟩ := Ledger.isClaimed_iff.1 claimed
        have confirmed := orderly.steady id r t.id u there consumer found
        rw [pending] at confirmed
        cases confirmed
      · rintro ⟨v, there, confirmed⟩
        rw [TransferWrite.transfer, found] at there
        obtain rfl := Option.some.inj there
        rw [pending] at confirmed
        cases confirmed

include final

/-- Every transfer that is claimed was given out. -/
theorem settled {k : Claim} (member : k ∈ c.settled s.ledger) :
    k.transferId.ulid ∈ s.issued := by
  rcases prudent.backed k member with ⟨w, isWritten, same, -⟩ | known
  · rw [← same]
    exact (orderly.written own prudent isWritten).2.2
  · obtain ⟨t, found, -⟩ := final _ known
    exact orderly.stored _ t found

/-- A prudent call is regular. -/
theorem regular (newRoute : ∀ r, c = .insertRoute r → r.IsNew) : c.Regular s.ledger where
  newRoute := newRoute
  backed k member := (prudent.backed k member).imp_right (final _)
  final := by
    rintro w member (claimed | ⟨k, isSettled, same⟩)
    · rw [(orderly.written own prudent member).1] at claimed
      cases claimed
    · rcases prudent.backed k isSettled with ⟨w', isWritten, same', confirmed⟩ | known
      · obtain rfl :=
          List.inj_on_of_nodup_map prudent.distinct member isWritten
            (same.symm.trans same'.symm)
        exact confirmed
      · rw [same] at known
        exact absurd (final _ known) (orderly.written own prudent member).2.1
  named := by
    intro t u member found
    rw [(orderly.inserted own prudent member).2.1] at found
    cases found

/-- A prudent task writes to the ledger, and gives up what it inserts. -/
theorem performed (newRoute : ∀ r, c = .insertRoute r → r.IsNew) :
    Orderly { s with ledger := (s.ledger.perform c).2 }
      (holder.assign (insertedBy (c.written s.ledger)) none) where
  ordered := orderly.ordered.perform newRoute
  steady := orderly.steady.perform (orderly.regular own final prudent newRoute)
  stored := by
    intro id t found
    rcases Ledger.stored_or_written found with old | ⟨w, member, rfl, rfl⟩
    · exact orderly.stored id t old
    · exact (orderly.written own prudent member).2.2
  claimed := by
    intro id claimed
    rcases Ledger.isClaimed_perform newRoute claimed with old | ⟨k, isSettled, rfl⟩
    · exact orderly.claimed id old
    · exact orderly.settled own final prudent isSettled
  held := by
    intro u j held
    rcases Holder.assign_eq_some.1 held with ⟨-, none⟩ | ⟨other, held⟩
    · cases none
    obtain ⟨issued, unstored, unclaimed⟩ := orderly.held u j held
    -- What is written under the identifier would have to be inserted there.
    have unwritten : ∀ w ∈ c.written s.ledger, w.transfer.id ≠ ⟨u⟩ := by
      rintro (t | ⟨t, expected⟩) member same
      · exact other (mem_insertedBy.2 ⟨t, member, by rw [show t.id = ⟨u⟩ from same]⟩)
      · obtain ⟨v, found, -⟩ := updated prudent member
        rw [show t.id = ⟨u⟩ from same, unstored] at found
        cases found
    refine ⟨issued, Option.eq_none_iff_forall_ne_some.2 fun t found => ?_,
      Bool.eq_false_iff.2 fun claimed => ?_⟩
    · rcases Ledger.stored_or_written found with old | ⟨w, member, rfl, same⟩
      · rw [unstored] at old
        cases old
      · exact unwritten w member same
    · rcases Ledger.isClaimed_perform newRoute claimed with old | ⟨k, isSettled, same⟩
      · rw [unclaimed] at old
        cases old
      · rcases prudent.backed k isSettled with ⟨w, member, sameId, -⟩ | known
        · exact unwritten w member (sameId.trans same)
        · obtain ⟨t, found, -⟩ := final _ known
          rw [same, unstored] at found
          cases found

omit final in
/-- What is confirmed stays so. -/
theorem final_perform {id : TransferId} (isFinal : s.ledger.IsFinal id) :
    (s.ledger.perform c).2.IsFinal id := by
  rw [Ledger.IsFinal, Ledger.transfers_perform]
  rcases Ledger.written_or_leftOut s.ledger (c.written s.ledger) id with
    ⟨w, member, rfl, -⟩ | ⟨same, -⟩
  · exact absurd isFinal (orderly.written own prudent member).2.1
  · rw [same]
    exact isFinal

end Perform

/-! ## Honest answers -/

theorem different_transfers (orderly : Orderly s holder) :
    Different s.ledger.transfers.values :=
  Table.nodup_values orderly.ordered.transfer

theorem different_unmatched (orderly : Orderly s holder) (key : MatchKey)
    (token : Token) :
    Different (s.ledger.unmatchedConfirmed key token) :=
  ((perm_sortBy _ _).map _).nodup_iff.2
    (orderly.different_transfers.sublist (List.filter_sublist.map _))

/-- An orderly ledger answers honestly. -/
theorem honest (orderly : Orderly s holder) (own : g.held = holder.of k) {c : Call}
    {reply : c.Reply} (permitted : s.Permits c reply after) : g.Honest c reply := by
  cases c with
  | stamp =>
      obtain ⟨fresh, -⟩ := permitted
      intro held
      rw [own] at held
      exact fresh (orderly.held _ k held).1
  | ledger c =>
      obtain ⟨rfl, -⟩ := permitted
      cases c with
      | pendingTransfers chain =>
          refine ⟨orderly.different_transfers.sublist (List.filter_sublist.map _),
            fun t told held => ?_⟩
          have found := orderly.ordered.get?_of_mem (List.mem_filter.1 told).1
          rw [own] at held
          rw [(orderly.held _ k held).2.1] at found
          cases found
      | transfersInRange chain low high =>
          exact orderly.different_transfers.sublist (List.filter_sublist.map _)
      | unmatchedConfirmed key token => exact orderly.different_unmatched key token
      | matchContext chain keys =>
          have distinct := Table.nodup_values orderly.ordered.route
          exact List.Nodup.sublist (List.filter_sublist.map _) distinct
      | _ => trivial
  | _ => trivial

end Orderly

/-- Whatever is found unmatched is stored and confirmed. -/
theorem Ledger.Ordered.final_of_unmatched {l : Ledger} (ordered : l.Ordered)
    {key : MatchKey} {token : Token} {t : Transfer}
    (found : t ∈ l.unmatchedConfirmed key token) : l.IsFinal t.id := by
  obtain ⟨stored, unmatched⟩ := List.mem_filter.1 (mem_sortBy.1 found)
  simp only [Bool.and_eq_true, beq_iff_eq] at unmatched
  exact ⟨t, ordered.get?_of_mem stored, unmatched.1.1.1⟩

/-- A call of one task is answered honestly, and leaves things orderly for all of them. -/
structure Served (s : Surroundings) (holder : Holder) (k : Nat) (g : Grasp) (c : Call)
    (reply : c.Reply) (after : Surroundings) (holder' : Holder) : Prop where
  orderly : Orderly after holder'
  honest : g.Honest c reply
  own : (g.next c reply).held = holder'.of k
  others : ∀ j, j ≠ k → holder'.of j = holder.of j
  final : ∀ id ∈ (g.next c reply).final, after.ledger.IsFinal id
  lasts : ∀ id, s.ledger.IsFinal id → after.ledger.IsFinal id

theorem Call.Prudent.written {l : Ledger} {c : Ledger.Call} {g : Grasp}
    (prudent : (Call.ledger c).Prudent g) :
    Paywatch.Prudent g (c.written l) (c.settled l) := by
  cases c with
  | commit b =>
      simp only [Ledger.Call.written, Ledger.Call.settled]
      split
      · exact prudent
      · exact prudent_nil g
  | commitPlan writes p =>
      simp only [Ledger.Call.written, Ledger.Call.settled]
      split
      · exact prudent
      · exact prudent_nil g
  | _ => exact prudent_nil g

theorem Orderly.served {s after : Surroundings} {holder : Holder} {k : Nat} {g : Grasp}
    (orderly : Orderly s holder) (own : g.held = holder.of k)
    (final : ∀ id ∈ g.final, s.ledger.IsFinal id) {c : Call} {reply : c.Reply}
    (prudent : c.Prudent g) (permitted : s.Permits c reply after) :
    ∃ holder', Served s holder k g c reply after holder' := by
  have honest := orderly.honest own permitted
  cases c with
  | stamp =>
      obtain ⟨fresh, rfl⟩ := permitted
      have new : ∀ u ∈ [reply.ulid], u ∉ s.issued := by
        simpa using fresh
      have unheld : ∀ u ∈ [reply.ulid], holder u = none :=
        fun u member => orderly.unheld (new u member)
      refine ⟨_, orderly.granted new k, honest, ?_,
        fun j other => Holder.of_assign_of_ne unheld other, final, fun _ => id⟩
      ext u
      rw [Grasp.next, own, Holder.mem_of, Holder.assign_eq_some, List.mem_singleton,
        Set.mem_insert_iff, Holder.mem_of]
      by_cases same : u = reply.ulid <;> simp [same]
  | ledger c =>
      obtain ⟨rfl, rfl⟩ := permitted
      have written := prudent.written (l := s.ledger)
      have newRoute : ∀ r, c = .insertRoute r → r.IsNew := by
        rintro r rfl
        exact prudent
      have lasts : ∀ id, s.ledger.IsFinal id → (s.ledger.perform c).2.IsFinal id :=
        fun id => orderly.final_perform own written
      refine ⟨_, orderly.performed own final written newRoute, honest, ?_, ?_, ?_, lasts⟩
      · cases c with
        | commit b => exact (of_assign_commit own.symm).symm
        | commitPlan writes p => exact (of_assign_commit own.symm).symm
        | _ => exact own.trans of_assign_nil.symm
      · refine fun j other => Holder.of_assign_of_held (fun u inserted => ?_) other
        obtain ⟨t, member, rfl⟩ := mem_insertedBy.1 inserted
        have held := written.held t member
        rwa [own] at held
      · intro id known
        cases c with
        | unmatchedConfirmed key token =>
            rcases known with known | ⟨t, found, rfl⟩
            · exact lasts id (final id known)
            · exact orderly.ordered.final_of_unmatched found
        | _ => exact lasts id (final id known)
  | _ =>
      obtain rfl := (show after = s from permitted)
      exact ⟨holder, orderly, honest, own, fun _ _ => rfl, final, fun _ => id⟩

end Paywatch
