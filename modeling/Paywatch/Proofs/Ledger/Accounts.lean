import Paywatch.Notice.Basic
import Paywatch.Proofs.Ledger.Closing

/-!
# What the consumed routes say

Of a settlement the ledger keeps the consumed route, with its order and its consumer.  A
claim is settled once:  its route is open before and consumed from then on.  So at any
time the consumed routes say the same, one for one, as the claims that were settled.
-/

namespace Paywatch

/-- A route that was settled, its order, and the transfer that settled it. -/
structure Settlement where
  order : OrderId
  route : RouteId
  transfer : Option TransferId
deriving DecidableEq

def Claim.settlement (c : Claim) : Settlement := ⟨c.orderId, c.routeId, some c.transferId⟩

def Route.settlement (r : Route) : Settlement := ⟨r.orderId, r.id, r.consumedBy⟩

/-- What a notice says that it tells of a settlement. -/
def Notice.settlement? : Notice → Option Settlement
  | .settlement order route transfer _ _ => some ⟨order, route, some transfer⟩
  | _ => none

/-- A plan is announced by a notice for each of its claims, among others. -/
theorem Plan.settlements_notices (p : Plan) :
    p.notices.filterMap Notice.settlement? = p.claims.map Claim.settlement := by
  have deposits :
      (p.deposits.map fun d => Notice.depositRecorded d.id d.transferId d.externalRef
      d.chain).filterMap Notice.settlement? = [] := by
    rw [List.filterMap_map]
    exact List.filterMap_eq_nil_iff.2 fun _ _ => rfl
  rw [notices, List.filterMap_append, deposits, List.append_nil, List.filterMap_map]
  exact congrFun List.filterMap_eq_map p.claims

namespace Ledger

/-- What the consumed routes say. -/
def settlements (l : Ledger) : List Settlement :=
  (l.routes.values.filter (·.status == .consumed)).map Route.settlement

theorem mem_settlements {l : Ledger} {x : Settlement} : x ∈ l.settlements ↔
    ∃ id r, l.routes.get? id = some r ∧ r.status = .consumed ∧ r.settlement = x := by
  simp only [settlements, List.mem_map, List.mem_filter, Table.mem_values_iff, beq_iff_eq]
  constructor
  · rintro ⟨r, ⟨⟨id, found⟩, consumed⟩, same⟩
    exact ⟨id, r, found, consumed, same⟩
  · rintro ⟨id, r, found, consumed, same⟩
    exact ⟨r, ⟨⟨id, found⟩, consumed⟩, same⟩

/-- No two settlements are of one route. -/
theorem nodup_settlements {l : Ledger} (filed : Filed l) : l.settlements.Nodup := by
  have ids : l.routes.values.map (·.id) = l.routes.entries.map Prod.fst := by
    rw [Table.values, List.map_map]
    apply List.map_congr_left
    rintro ⟨id, r⟩ entry
    exact (filed.route id r (Table.mem_entries_iff.1 entry)).1
  apply List.Nodup.of_map Settlement.route
  rw [settlements, List.map_map]
  refine List.Nodup.sublist (List.filter_sublist.map _) ?_
  rw [show Settlement.route ∘ Route.settlement = (·.id) from rfl, ids]
  exact l.routes.distinct

/-- The claims are those that the consumed routes come from. -/
structure Accounted (l : Ledger) (claims : List Claim) : Prop where
  once : (claims.map (·.routeId)).Nodup
  consumed : ∀ c ∈ claims, ∃ r, l.routes.get? c.routeId = some r ∧ r.status = .consumed ∧
    r.settlement = c.settlement
  claimed : ∀ id r, l.routes.get? id = some r → r.status = .consumed →
    ∃ c ∈ claims, c.routeId = id

theorem accounted_empty : Accounted .empty [] where
  once := by simp
  consumed := by simp
  claimed := by simp [empty]

/-- The consumed routes say what the claims said. -/
theorem Accounted.perm {l : Ledger} {claims : List Claim} (accounted : Accounted l claims)
    (filed : Filed l) : (claims.map Claim.settlement).Perm l.settlements := by
  have once : (claims.map Claim.settlement).Nodup := by
    apply List.Nodup.of_map Settlement.route
    rw [List.map_map]
    exact accounted.once
  apply (List.perm_ext_iff_of_nodup once (nodup_settlements filed)).2
  intro x
  rw [mem_settlements, List.mem_map]
  constructor
  · rintro ⟨c, member, rfl⟩
    obtain ⟨r, found, consumed, same⟩ := accounted.consumed c member
    exact ⟨c.routeId, r, found, consumed, same⟩
  · rintro ⟨id, r, found, consumed, rfl⟩
    obtain ⟨c, member, rfl⟩ := accounted.claimed id r found consumed
    obtain ⟨r', there, -, same⟩ := accounted.consumed c member
    obtain rfl := Option.some.inj (there.symm.trans found)
    exact ⟨c, member, same.symm⟩

section Step

variable {l after : Ledger} {claims : List Claim} (accounted : Accounted l claims)
include accounted

theorem Accounted.congr (routes : after.routes = l.routes) : Accounted after claims where
  once := accounted.once
  consumed := by
    rw [routes]
    exact accounted.consumed
  claimed := by
    rw [routes]
    exact accounted.claimed

theorem Accounted.not_open {c : Claim} (member : c ∈ claims) {r : Route}
    (found : l.routes.get? c.routeId = some r) : r.status ≠ .open := by
  obtain ⟨r', there, consumed, -⟩ := accounted.consumed c member
  obtain rfl := Option.some.inj (there.symm.trans found)
  rw [consumed]
  exact nofun

/-- What is settled now was not settled before. -/
theorem Accounted.apart {c d : Claim} (old : c ∈ claims)
    (claimable : l.checkClaim d = .ok ()) : d.routeId ≠ c.routeId := by
  intro same
  obtain ⟨⟨r, found, isOpen, -⟩, -⟩ := checkClaim_eq_ok claimable
  rw [same] at found
  exact accounted.not_open old found isOpen

theorem Accounted.booked {writes : List TransferWrite} {batch : List Claim}
    (filed : Filed l) (booked : Booked l writes batch after)
    (matched : WellMatched l batch) : Accounted after (batch ++ claims) := by
  have once := (Claim.nodup_of_check matched.checked).1
  constructor
  case once =>
    rw [List.map_append, List.nodup_append]
    refine ⟨once, accounted.once, ?_⟩
    simp only [List.forall_mem_map]
    exact fun d new c old => accounted.apart old (booked.claimable d new)
  case consumed =>
    intro c member
    rcases List.mem_append.1 member with new | old
    · obtain ⟨⟨r, found, isOpen, -⟩, -⟩ := checkClaim_eq_ok (booked.claimable c new)
      obtain ⟨r', there, change⟩ := route_foldl_writeClaim batch found
      rcases change with ⟨-, unnamed⟩ | ⟨closed, -⟩
      · exact absurd rfl (unnamed c new)
      obtain ⟨s, before, change⟩ := routes_foldl_writeClaim there
      obtain rfl := Option.some.inj (before.symm.trans found)
      rcases change with rfl | ⟨d, among, sameRoute, rfl⟩
      · rw [Route.isOpen, isOpen] at closed
        cases closed
      · obtain rfl := List.inj_on_of_nodup_map once among new sameRoute
        refine ⟨_, by rw [booked.routes, there], rfl, ?_⟩
        simp only [Route.settlement, Route.consume, Claim.settlement,
          matched.ofRoute d new s found, (filed.route _ s found).1]
    · obtain ⟨r, found, consumed, same⟩ := accounted.consumed c old
      obtain ⟨r', there, change⟩ := route_foldl_writeClaim batch found
      rcases change with ⟨rfl, -⟩ | ⟨-, d, new, sameRoute, -⟩
      · exact ⟨r', by rw [booked.routes, there], consumed, same⟩
      · exact absurd sameRoute (accounted.apart old (booked.claimable d new))
  case claimed =>
    intro id r found consumed
    rw [booked.routes] at found
    obtain ⟨s, before, change⟩ := routes_foldl_writeClaim found
    rcases change with rfl | ⟨c, new, here, -⟩
    · obtain ⟨c, old, here⟩ := accounted.claimed id r before consumed
      exact ⟨c, List.mem_append_right _ old, here⟩
    · exact ⟨c, List.mem_append_left _ new, here⟩

theorem Accounted.insertRoute {r : Route} (new : r.IsNew)
    (fresh : l.routes.get? r.id = none) : Accounted (l.insertRoute r) claims where
  once := accounted.once
  consumed := by
    intro c member
    obtain ⟨s, found, consumed⟩ := accounted.consumed c member
    exact ⟨s, Table.get?_insert_of_fresh fresh found, consumed⟩
  claimed := by
    intro id s found consumed
    rw [Ledger.insertRoute, Table.get?_insert] at found
    split at found
    · cases found
      rw [new.isOpen] at consumed
      cases consumed
    · exact accounted.claimed id s found consumed

/-- What a call settles is accounted for by what it leaves. -/
theorem Accounted.perform (filed : Filed l) {c : Call}
    (matched : WellMatched l (c.settled l))
    (new : ∀ r, c = .insertRoute r → r.IsNew ∧ l.routes.get? r.id = none) :
    Accounted (l.perform c).2 (c.settled l ++ claims) := by
  cases c with
  | commit b => exact accounted.booked filed (booked_commit l b) matched
  | commitPlan writes p =>
      exact accounted.booked filed (booked_commitPlan l writes p) matched
  | insertRoute r => exact accounted.insertRoute (new r rfl).1 (new r rfl).2
  | insertOrder o => exact accounted.congr rfl
  | expireOrder id =>
      apply accounted.congr
      simp only [Ledger.perform]
      cases expired : l.expireOrder id with
      | error e => rfl
      | ok result =>
          simp only
          rw [expireOrder_frame expired]
  | _ => exact accounted.congr (by rw [perform_frame l rfl])

end Step

end Ledger

end Paywatch
