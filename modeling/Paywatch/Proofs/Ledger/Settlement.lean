import Mathlib.Algebra.GroupWithZero.Nat
import Mathlib.Logic.Relation
import Paywatch.Ledger.Call
import Paywatch.Proofs.Ledger.Commit

/-!
# Settlement is safe

Orders, routes and the claims on them under any sequence of calls to the ledger.
`Sound` ties the three together: a route is consumed exactly if it has a consumer, no
transfer consumes two routes, and an order has received the sum of the claims on its
routes.  A commit checks its claims against the ledger in front of it and then settles
them one after the other, so `Payable` says what such a claim still finds when others of
the same batch went before it.
-/

namespace Paywatch

/-- An order as it is placed: it asks for something and nothing is paid. -/
structure Order.IsNew (o : Order) : Prop where
  isOpen : o.status = .open
  nothingPaid : o.totalPaid = .zero
  wanted : 0 < o.amount.units

/-- A route as it is opened. -/
structure Route.IsNew (r : Route) : Prop where
  isOpen : r.status = .open
  unconsumed : r.consumedBy = none

namespace Claim

theorem firstRepeated_eq_none {routes : List RouteId} {transfers : List TransferId}
    {claims : List Claim} (none : firstRepeated routes transfers claims = none) :
    (claims.map (·.routeId)).Nodup ∧ (claims.map (·.transferId)).Nodup ∧
      (∀ c ∈ claims, c.routeId ∉ routes) ∧ ∀ c ∈ claims, c.transferId ∉ transfers := by
  induction claims generalizing routes transfers with
  | nil => simp
  | cons c rest ih =>
      simp only [firstRepeated, Bool.or_eq_true, List.contains_iff_mem] at none
      split at none
      · cases none
      · rename_i fresh
        rw [not_or] at fresh
        obtain ⟨routesOnce, transfersOnce, freshRoutes, freshTransfers⟩ := ih none
        simp only [List.map_cons, List.nodup_cons, List.mem_map, not_exists, not_and,
          List.forall_mem_cons]
        refine ⟨⟨fun d member same => ?_, routesOnce⟩,
          ⟨fun d member same => ?_, transfersOnce⟩, ⟨fresh.1, fun d member => ?_⟩,
          fresh.2, fun d member => ?_⟩
        · exact freshRoutes d member (by simp [same])
        · exact freshTransfers d member (by simp [same])
        · intro used
          exact freshRoutes d member (List.mem_cons_of_mem _ used)
        · intro used
          exact freshTransfers d member (List.mem_cons_of_mem _ used)

/-- Claims that pass the check use every route and every transfer once. -/
theorem nodup_of_check {claims : List Claim} (checked : check claims = .ok ()) :
    (claims.map (·.routeId)).Nodup ∧ (claims.map (·.transferId)).Nodup := by
  unfold check at checked
  split at checked
  · cases checked
  · rename_i none
    exact ⟨(firstRepeated_eq_none none).1, (firstRepeated_eq_none none).2.1⟩

/-- What a list of claims brings to an order. -/
def sumFor (claims : List Claim) (order : OrderId) : Nat :=
  ((claims.filter (·.orderId == order)).map (·.amount.units)).sum

@[simp] theorem sumFor_nil (order : OrderId) : sumFor [] order = 0 := rfl

theorem sumFor_snoc (claims : List Claim) (c : Claim) (order : OrderId) :
    sumFor (claims ++ [c]) order =
      sumFor claims order + if c.orderId = order then c.amount.units else 0 := by
  by_cases same : c.orderId = order <;> simp [sumFor, List.filter_append, same]

end Claim

theorem Order.pay_status_ne_expired {o : Order} (amount : Amount)
    (live : o.status ≠ .expired) : (o.pay amount).status ≠ .expired := by
  simp only [Order.pay]
  split
  · simp
  · exact live

/-- Booking a payment keeps an order paid exactly when it is covered. -/
theorem Order.pay_paid_iff {o : Order} (amount : Amount)
    (paid_iff : o.status = .paid ↔ o.amount.units ≤ o.totalPaid.units) :
    (o.pay amount).status = .paid ↔
      (o.pay amount).amount.units ≤ (o.pay amount).totalPaid.units := by
  have covered : o.amount ≤ o.totalPaid.addCapped amount ↔
      o.amount.units ≤ min (o.totalPaid.units + amount.units) (1 <<< 128 - 1) := Iff.rfl
  have bound := o.amount.units_lt
  simp only [Order.pay, Amount.units_addCapped]
  split
  · rename_i enough
    exact iff_of_true rfl (covered.1 enough)
  · rename_i short
    have unpaid : o.status ≠ .paid :=
      fun paid => short (covered.2 (by have := paid_iff.1 paid; omega))
    exact iff_of_false unpaid fun enough => short (covered.2 enough)

namespace Ledger

theorem isClaimed_iff {l : Ledger} {t : TransferId} :
    l.isClaimed t = true ↔ ∃ id r, l.routes.get? id = some r ∧ r.consumedBy = some t := by
  simp only [isClaimed, List.any_eq_true, Table.mem_values_iff, beq_iff_eq]
  constructor
  · rintro ⟨r, ⟨id, found⟩, consumed⟩
    exact ⟨id, r, found, consumed⟩
  · rintro ⟨id, r, found, consumed⟩
    exact ⟨r, ⟨id, found⟩, consumed⟩

/-- What a commit finds out about a claim. -/
theorem checkClaim_eq_ok {l : Ledger} {c : Claim} (checked : l.checkClaim c = .ok ()) :
    (∃ r, l.routes.get? c.routeId = some r ∧ r.status = .open ∧ r.consumedBy = none) ∧
      (∃ o, l.orders.get? c.orderId = some o ∧ o.status = .open) ∧
      l.isClaimed c.transferId = false := by
  unfold checkClaim at checked
  simp only at checked
  split at checked
  · rename_i passed
    simp only [Bool.and_eq_true, Bool.not_eq_true', Option.any_eq_true, Route.isOpen,
      Order.isOpen, beq_iff_eq, Option.isNone_iff_eq_none] at passed
    obtain ⟨⟨route, order⟩, unclaimed⟩ := passed
    exact ⟨route, order, unclaimed⟩
  · cases checked

/-- A claim on an open route of an order that may still be paid, by a transfer
that consumed nothing. -/
structure Payable (l : Ledger) (c : Claim) : Prop where
  route : ∃ r, l.routes.get? c.routeId = some r ∧ r.status = .open ∧ r.consumedBy = none ∧
    r.orderId = c.orderId
  order : ∃ o, l.orders.get? c.orderId = some o ∧ o.status ≠ .expired
  unclaimed : ∀ id r, l.routes.get? id = some r → r.consumedBy ≠ some c.transferId

theorem payable_of_check {l : Ledger} {c : Claim} (checked : l.checkClaim c = .ok ())
    (ofRoute : ∀ r, l.routes.get? c.routeId = some r → c.orderId = r.orderId) :
    Payable l c := by
  obtain ⟨⟨r, found, isOpen, unconsumed⟩, ⟨o, placed, orderOpen⟩, unclaimed⟩ :=
    checkClaim_eq_ok checked
  refine ⟨⟨r, found, isOpen, unconsumed, (ofRoute r found).symm⟩, ⟨o, placed, ?_⟩, ?_⟩
  · simp [orderOpen]
  · intro id r' found' consumed
    have claimed : l.isClaimed c.transferId = true :=
      isClaimed_iff.2 ⟨id, r', found', consumed⟩
    rw [unclaimed] at claimed
    cases claimed

theorem routes_writeClaim (l : Ledger) (c : Claim) (id : RouteId) :
    (l.writeClaim c).routes.get? id =
      if c.routeId = id then (l.routes.get? id).map (·.consume c.transferId)
      else l.routes.get? id :=
  Table.get?_modify _ _ _ _

theorem orders_writeClaim (l : Ledger) (c : Claim) (id : OrderId) :
    (l.writeClaim c).orders.get? id =
      if c.orderId = id then (l.orders.get? id).map (·.pay c.amount)
      else l.orders.get? id :=
  Table.get?_modify _ _ _ _

/-- A claim stays payable when another one, on another route and by another transfer, is
settled before it.  Their order may be the same. -/
theorem Payable.writeClaim {l : Ledger} {c d : Claim} (payable : Payable l d)
    (otherRoute : c.routeId ≠ d.routeId) (otherTransfer : c.transferId ≠ d.transferId) :
    Payable (l.writeClaim c) d := by
  obtain ⟨⟨r, found, isOpen, unconsumed, ofOrder⟩, ⟨o, placed, live⟩, unclaimed⟩ :=
    payable
  refine ⟨⟨r, ?_, isOpen, unconsumed, ofOrder⟩, ?_, ?_⟩
  · rw [routes_writeClaim, if_neg otherRoute]
    exact found
  · rw [orders_writeClaim, placed]
    split
    · exact ⟨_, rfl, Order.pay_status_ne_expired _ live⟩
    · exact ⟨o, rfl, live⟩
  · intro id s foundAfter
    rw [routes_writeClaim] at foundAfter
    split at foundAfter
    · obtain ⟨s', -, rfl⟩ := Option.map_eq_some_iff.1 foundAfter
      simpa [Route.consume] using otherTransfer
    · exact unclaimed id s foundAfter

/-! ## The invariant -/

/-- Routes, orders and the claims committed so far fit together. -/
structure Sound (l : Ledger) (claims : List Claim) : Prop where
  consumed_iff : ∀ id r, l.routes.get? id = some r →
    (r.status = .consumed ↔ r.consumedBy.isSome)
  consumer_unique : ∀ id id' r r' t, l.routes.get? id = some r →
    l.routes.get? id' = some r' →
    r.consumedBy = some t → r'.consumedBy = some t → id = id'
  placed : ∀ id r, l.routes.get? id = some r → ∃ o, l.orders.get? r.orderId = some o
  claimed : ∀ c ∈ claims, ∃ r, l.routes.get? c.routeId = some r ∧ r.orderId = c.orderId
  total : ∀ id o, l.orders.get? id = some o →
    o.totalPaid.units = min (Claim.sumFor claims id) (1 <<< 128 - 1)
  paid_iff : ∀ id o, l.orders.get? id = some o →
    (o.status = .paid ↔ o.amount.units ≤ o.totalPaid.units)

theorem sound_empty : Sound .empty [] where
  consumed_iff := by simp [empty]
  consumer_unique := by simp [empty]
  placed := by simp [empty]
  claimed := by simp
  total := by simp [empty]
  paid_iff := by simp [empty]

/-- Only routes and orders matter. -/
theorem Sound.congr {l m : Ledger} {claims : List Claim} (sound : Sound l claims)
    (routes : m.routes = l.routes) (orders : m.orders = l.orders) : Sound m claims := by
  obtain ⟨consumed_iff, consumer_unique, placed, claimed, total, paid_iff⟩ := sound
  constructor
  all_goals
    simp only [routes, orders]
    assumption

theorem Sound.writeClaim {l : Ledger} {claims : List Claim} {c : Claim}
    (sound : Sound l claims) (payable : Payable l c) :
    Sound (l.writeClaim c) (claims ++ [c]) where
  consumed_iff := by
    intro id r found
    rw [routes_writeClaim] at found
    split at found
    · obtain ⟨r', -, rfl⟩ := Option.map_eq_some_iff.1 found
      simp [Route.consume]
    · exact sound.consumed_iff id r found
  consumer_unique := by
    intro id id' r r' t found found' consumed consumed'
    rw [routes_writeClaim] at found found'
    split at found <;> split at found'
    · rename_i here here'
      exact here.symm.trans here'
    · obtain ⟨s, -, rfl⟩ := Option.map_eq_some_iff.1 found
      obtain rfl : c.transferId = t := by simpa [Route.consume] using consumed
      exact absurd consumed' (payable.unclaimed id' r' found')
    · obtain ⟨s, -, rfl⟩ := Option.map_eq_some_iff.1 found'
      obtain rfl : c.transferId = t := by simpa [Route.consume] using consumed'
      exact absurd consumed (payable.unclaimed id r found)
    · exact sound.consumer_unique id id' r r' t found found' consumed consumed'
  placed := by
    intro id r found
    have before : ∃ s, l.routes.get? id = some s ∧ s.orderId = r.orderId := by
      rw [routes_writeClaim] at found
      split at found
      · obtain ⟨s, foundBefore, rfl⟩ := Option.map_eq_some_iff.1 found
        exact ⟨s, foundBefore, rfl⟩
      · exact ⟨r, found, rfl⟩
    obtain ⟨s, foundBefore, sameOrder⟩ := before
    obtain ⟨o, placed⟩ := sound.placed id s foundBefore
    rw [sameOrder] at placed
    rw [orders_writeClaim, placed]
    split
    · exact ⟨_, rfl⟩
    · exact ⟨o, rfl⟩
  claimed := by
    intro d member
    have before : ∃ r, l.routes.get? d.routeId = some r ∧ r.orderId = d.orderId := by
      rcases List.mem_append.1 member with old | new
      · exact sound.claimed d old
      · obtain rfl := List.mem_singleton.1 new
        obtain ⟨r, found, -, -, ofOrder⟩ := payable.route
        exact ⟨r, found, ofOrder⟩
    obtain ⟨r, found, ofOrder⟩ := before
    rw [routes_writeClaim, found]
    split
    · exact ⟨_, rfl, ofOrder⟩
    · exact ⟨r, rfl, ofOrder⟩
  total := by
    intro id o found
    rw [orders_writeClaim] at found
    rw [Claim.sumFor_snoc]
    split at found
    · rename_i here
      obtain ⟨o', foundBefore, rfl⟩ := Option.map_eq_some_iff.1 found
      have before := sound.total id o' foundBefore
      rw [if_pos here]
      simp only [Order.pay, Amount.units_addCapped, before]
      omega
    · rename_i elsewhere
      rw [if_neg elsewhere, Nat.add_zero]
      exact sound.total id o found
  paid_iff := by
    intro id o found
    rw [orders_writeClaim] at found
    split at found
    · rename_i here
      obtain ⟨o', foundBefore, rfl⟩ := Option.map_eq_some_iff.1 found
      exact Order.pay_paid_iff c.amount (sound.paid_iff id o' foundBefore)
    · exact sound.paid_iff id o found

/-! ## What stays -/

/-- Every route and every order is still there.  A settled route is as it was, and an
order that was not open any more has kept its status. -/
structure Keeps (l after : Ledger) : Prop where
  route : ∀ id r, l.routes.get? id = some r → ∃ r', after.routes.get? id = some r' ∧
    (r' = r ∨ r.status = .open ∧ ∃ t, r' = r.consume t)
  order : ∀ id o, l.orders.get? id = some o → ∃ o', after.orders.get? id = some o' ∧
    (o.status ≠ .open → o'.status = o.status)

theorem keeps_of_eq {l after : Ledger} (routes : after.routes = l.routes)
    (orders : after.orders = l.orders) : Keeps l after where
  route id r found := ⟨r, by rw [routes, found], Or.inl rfl⟩
  order id o found := ⟨o, by rw [orders, found], fun _ => rfl⟩

theorem Keeps.refl (l : Ledger) : Keeps l l := keeps_of_eq rfl rfl

theorem Keeps.trans {l m n : Ledger} (first : Keeps l m) (second : Keeps m n) :
    Keeps l n where
  route := by
    intro id r found
    obtain ⟨s, foundThen, change⟩ := first.route id r found
    obtain ⟨s', foundLast, change'⟩ := second.route id s foundThen
    refine ⟨s', foundLast, ?_⟩
    rcases change with rfl | ⟨wasOpen, t, rfl⟩
    · exact change'
    · rcases change' with rfl | ⟨stillOpen, -⟩
      · exact Or.inr ⟨wasOpen, t, rfl⟩
      · cases stillOpen
  order := by
    intro id o found
    obtain ⟨p, foundThen, final⟩ := first.order id o found
    obtain ⟨p', foundLast, final'⟩ := second.order id p foundThen
    refine ⟨p', foundLast, ?_⟩
    intro closed
    have same := final closed
    exact (final' (by rwa [same])).trans same

theorem keeps_writeClaim {l : Ledger} {c : Claim} (payable : Payable l c) :
    Keeps l (l.writeClaim c) where
  route := by
    intro id r found
    rw [routes_writeClaim, found]
    split
    · rename_i here
      obtain ⟨r', foundRoute, isOpen, -, -⟩ := payable.route
      obtain rfl : r' = r := by
        rw [here, found] at foundRoute
        exact (Option.some.inj foundRoute).symm
      exact ⟨_, rfl, Or.inr ⟨isOpen, c.transferId, rfl⟩⟩
    · exact ⟨r, rfl, Or.inl rfl⟩
  order := by
    intro id o found
    rw [orders_writeClaim, found]
    split
    · rename_i here
      obtain ⟨o', foundOrder, live⟩ := payable.order
      obtain rfl : o' = o := by
        rw [here, found] at foundOrder
        exact (Option.some.inj foundOrder).symm
      refine ⟨_, rfl, ?_⟩
      intro closed
      have paid : o'.status = .paid := by
        cases status : o'.status with
        | «open» => exact absurd status closed
        | paid => rfl
        | expired => exact absurd status live
      simp [Order.pay, paid]
    · exact ⟨o, rfl, fun _ => rfl⟩

/-! ## Batches of claims -/

/-- Claims that can be settled one after the other. -/
structure Settleable (l : Ledger) (batch : List Claim) : Prop where
  payable : ∀ c ∈ batch, Payable l c
  routesOnce : (batch.map (·.routeId)).Nodup
  transfersOnce : (batch.map (·.transferId)).Nodup

/-- While a batch is settled, every claim is payable when its turn comes. -/
theorem settle_induction {motive : Ledger → List Claim → Prop}
    (step : ∀ l claims c, Payable l c → motive l claims →
      motive (l.writeClaim c) (claims ++ [c]))
    {l : Ledger} {claims batch : List Claim} (start : motive l claims)
    (settleable : Settleable l batch) :
    motive (batch.foldl writeClaim l) (claims ++ batch) := by
  induction batch generalizing l claims with
  | nil => simpa using start
  | cons c rest ih =>
      obtain ⟨payable, routesOnce, transfersOnce⟩ := settleable
      rw [List.forall_mem_cons] at payable
      simp only [List.map_cons, List.nodup_cons, List.mem_map, not_exists, not_and]
        at routesOnce transfersOnce
      have restSettleable : Settleable (l.writeClaim c) rest := by
        refine ⟨fun d member => (payable.2 d member).writeClaim ?_ ?_, routesOnce.2,
          transfersOnce.2⟩
        · intro same
          exact routesOnce.1 d member same.symm
        · intro same
          exact transfersOnce.1 d member same.symm
      have settled := ih (step l claims c payable.1 start) restSettleable
      rwa [List.append_assoc, List.singleton_append] at settled

theorem Sound.settle {l : Ledger} {claims batch : List Claim} (sound : Sound l claims)
    (settleable : Settleable l batch) :
    Sound (batch.foldl Ledger.writeClaim l) (claims ++ batch) :=
  settle_induction (fun _ _ _ payable sound => sound.writeClaim payable) sound settleable

theorem keeps_settle {l : Ledger} {batch : List Claim} (settleable : Settleable l batch) :
    Keeps l (batch.foldl writeClaim l) := by
  apply settle_induction
    (motive := fun after _ => Keeps l after) ?_ (Keeps.refl l) settleable
  · intro m claims c payable keeps
    exact keeps.trans (keeps_writeClaim payable)
  · exact []

/-- A route after a batch of claims: as before, or consumed by one of them. -/
theorem routes_foldl_writeClaim {l : Ledger} {batch : List Claim} {id : RouteId}
    {r : Route} (found : (batch.foldl writeClaim l).routes.get? id = some r) :
    ∃ s, l.routes.get? id = some s ∧
      (r = s ∨ ∃ c ∈ batch, c.routeId = id ∧ r = s.consume c.transferId) := by
  induction batch generalizing l with
  | nil => exact ⟨r, found, Or.inl rfl⟩
  | cons c rest ih =>
      obtain ⟨s, there, change⟩ := ih found
      rw [routes_writeClaim] at there
      split at there
      · rename_i here
        obtain ⟨s', before, rfl⟩ := Option.map_eq_some_iff.1 there
        refine ⟨s', before, Or.inr ?_⟩
        rcases change with rfl | ⟨d, member, sameRoute, rfl⟩
        · exact ⟨c, List.mem_cons_self, here, rfl⟩
        · exact ⟨d, List.mem_cons_of_mem _ member, sameRoute, rfl⟩
      · refine ⟨s, there, ?_⟩
        rcases change with rfl | ⟨d, member, change⟩
        · exact Or.inl rfl
        · exact Or.inr ⟨d, List.mem_cons_of_mem _ member, change⟩

/-! ## Calls -/

/-- The claims that a call settles: those of a commit that is accepted. -/
def Call.settled (l : Ledger) : Call → List Claim
  | .commit b => if (l.commit b).isOk then b.claims else []
  | .commitPlan writes p => if (l.commitPlan writes p).isOk then p.claims else []
  | _ => []

/-- Claims that use every route and every transfer once and name the
orders of their routes. -/
structure WellMatched (l : Ledger) (claims : List Claim) : Prop where
  checked : Claim.check claims = .ok ()
  ofRoute : ∀ c ∈ claims, ∀ r, l.routes.get? c.routeId = some r → c.orderId = r.orderId

/-- What the ledger relies on and does not check: new orders and routes are new, and the
claims of a plan fit together. -/
def Call.Proper (l : Ledger) : Call → Prop
  | .insertOrder o => o.IsNew ∧ l.orders.get? o.id = none
  | .insertRoute r =>
    r.IsNew ∧ l.routes.get? r.id = none ∧ ∃ o, l.orders.get? r.orderId = some o
  | c => WellMatched l (c.settled l)

theorem WellMatched.settleable {l : Ledger} {claims : List Claim}
    (matched : WellMatched l claims) (claimable : ∀ c ∈ claims, l.checkClaim c = .ok ()) :
    Settleable l claims where
  payable c member := payable_of_check (claimable c member) (matched.ofRoute c member)
  routesOnce := (Claim.nodup_of_check matched.checked).1
  transfersOnce := (Claim.nodup_of_check matched.checked).2

/-- A commit settles its claims in order. -/
theorem Booked.safe {l after : Ledger} {writes : List TransferWrite}
    {batch claims : List Claim} (booked : Booked l writes batch after)
    (sound : Sound l claims) (matched : WellMatched l batch) :
    Sound after (claims ++ batch) ∧ Keeps l after := by
  have settleable := matched.settleable booked.claimable
  constructor
  · exact (sound.settle settleable).congr booked.routes booked.orders
  · exact (keeps_settle settleable).trans (keeps_of_eq booked.routes booked.orders)

theorem insertOrder_safe {l : Ledger} {claims : List Claim} {o : Order}
    (sound : Sound l claims) (new : o.IsNew) (fresh : l.orders.get? o.id = none) :
    Sound (l.insertOrder o) claims ∧ Keeps l (l.insertOrder o) := by
  have stays : ∀ id p, l.orders.get? id = some p →
    (l.insertOrder o).orders.get? id = some p :=
    fun _ _ => Table.get?_insert_of_fresh fresh
  -- No claim names the order: its route would have to belong to an order
  -- that is not there.
  have unclaimed : Claim.sumFor claims o.id = 0 := by
    have none : claims.filter (·.orderId == o.id) = [] := by
      rw [List.filter_eq_nil_iff]
      intro c member same
      obtain ⟨r, found, ofOrder⟩ := sound.claimed c member
      obtain ⟨p, placed⟩ := sound.placed _ r found
      rw [ofOrder, beq_iff_eq.1 same, fresh] at placed
      cases placed
    simp [Claim.sumFor, none]
  constructor
  · exact
      { sound with
        placed := by
          intro id r found
          obtain ⟨p, placed⟩ := sound.placed id r found
          exact ⟨p, stays _ p placed⟩
        total := by
          intro id p found
          rw [insertOrder, Table.get?_insert] at found
          split at found
          · rename_i here
            cases found
            rw [← here, unclaimed, new.nothingPaid]
            rfl
          · exact sound.total id p found
        paid_iff := by
          intro id p found
          rw [insertOrder, Table.get?_insert] at found
          split at found
          · cases found
            have wanted := new.wanted
            simp only [new.isOpen, new.nothingPaid, Amount.zero]
            exact iff_of_false (by simp) (by omega)
          · exact sound.paid_iff id p found }
  · constructor
    · intro id r found
      exact ⟨r, found, Or.inl rfl⟩
    · intro id p found
      exact ⟨p, stays id p found, fun _ => rfl⟩

theorem insertRoute_safe {l : Ledger} {claims : List Claim} {r : Route}
    (sound : Sound l claims) (new : r.IsNew) (fresh : l.routes.get? r.id = none)
    (placed : ∃ o, l.orders.get? r.orderId = some o) :
    Sound (l.insertRoute r) claims ∧ Keeps l (l.insertRoute r) := by
  have stays : ∀ id s, l.routes.get? id = some s →
    (l.insertRoute r).routes.get? id = some s :=
    fun _ _ => Table.get?_insert_of_fresh fresh
  have known : ∀ id s, (l.insertRoute r).routes.get? id = some s →
      s = r ∨ l.routes.get? id = some s := by
    intro id s found
    rw [insertRoute, Table.get?_insert] at found
    split at found
    · exact Or.inl (Option.some.inj found).symm
    · exact Or.inr found
  constructor
  · exact
      { sound with
        consumed_iff := by
          intro id s found
          rcases known id s found with rfl | old
          · simp [new.isOpen, new.unconsumed]
          · exact sound.consumed_iff id s old
        consumer_unique := by
          intro id id' s s' t found found' consumed consumed'
          rcases known id s found with rfl | old
          · rw [new.unconsumed] at consumed
            cases consumed
          · rcases known id' s' found' with rfl | old'
            · rw [new.unconsumed] at consumed'
              cases consumed'
            · exact sound.consumer_unique id id' s s' t old old' consumed consumed'
        placed := by
          intro id s found
          rcases known id s found with rfl | old
          · exact placed
          · exact sound.placed id s old
        claimed := by
          intro c member
          obtain ⟨s, found, ofOrder⟩ := sound.claimed c member
          exact ⟨s, stays _ s found, ofOrder⟩ }
  · constructor
    · intro id s found
      exact ⟨s, stays id s found, Or.inl rfl⟩
    · intro id o found
      exact ⟨o, found, fun _ => rfl⟩

/-- An order that expires was open; all else is left as it was. -/
theorem expireOrder_cases {l after : Ledger} {id : OrderId} {wasOpen : Bool}
    (expired : l.expireOrder id = .ok (wasOpen, after)) :
    (∃ o, l.orders.get? id = some o ∧ o.status = .open ∧
      after = { l with orders := l.orders.insert id { o with status := .expired } }) ∨
    after = l := by
  unfold expireOrder at expired
  split at expired
  · cases expired
  · rename_i o found
    split at expired
    · rename_i isOpen
      cases expired
      exact Or.inl ⟨o, found, by simpa [Order.isOpen] using isOpen, rfl⟩
    · cases expired
      exact Or.inr rfl

theorem expireOrder_frame {l after : Ledger} {id : OrderId} {wasOpen : Bool}
    (expired : l.expireOrder id = .ok (wasOpen, after)) :
    after = { l with orders := after.orders } := by
  rcases expireOrder_cases expired with ⟨o, -, -, rfl⟩ | rfl
  · rfl
  · rfl

theorem expireOrder_safe {l after : Ledger} {claims : List Claim} {id : OrderId}
    {wasOpen : Bool} (sound : Sound l claims)
    (expired : l.expireOrder id = .ok (wasOpen, after)) :
    Sound after claims ∧ Keeps l after := by
  rcases expireOrder_cases expired with ⟨o, found, status, rfl⟩ | rfl
  · have unpaid : ¬ o.amount.units ≤ o.totalPaid.units := by
      intro covered
      have paid := (sound.paid_iff id o found).2 covered
      rw [status] at paid
      cases paid
    constructor
    · exact
        { sound with
          placed := by
            intro id' r foundRoute
            obtain ⟨p, placed⟩ := sound.placed id' r foundRoute
            rw [Table.get?_insert]
            split
            · exact ⟨_, rfl⟩
            · exact ⟨p, placed⟩
          total := by
            intro id' p foundAfter
            rw [Table.get?_insert] at foundAfter
            split at foundAfter
            · rename_i here
              cases foundAfter
              exact here ▸ sound.total id o found
            · exact sound.total id' p foundAfter
          paid_iff := by
            intro id' p foundAfter
            rw [Table.get?_insert] at foundAfter
            split at foundAfter
            · cases foundAfter
              exact iff_of_false (by simp) unpaid
            · exact sound.paid_iff id' p foundAfter }
    · constructor
      · intro id' r foundRoute
        exact ⟨r, foundRoute, Or.inl rfl⟩
      · intro id' p foundBefore
        rw [Table.get?_insert]
        split
        · rename_i here
          refine ⟨_, rfl, ?_⟩
          intro closed
          obtain rfl : o = p := by
            rw [← here, found] at foundBefore
            exact Option.some.inj foundBefore
          exact absurd status closed
        · exact ⟨p, foundBefore, fun _ => rfl⟩
  · exact ⟨sound, Keeps.refl after⟩

/-- Calls that leave routes and orders alone change nothing of the settlement. -/
theorem safe_of_eq {l after : Ledger} {claims : List Claim} (sound : Sound l claims)
    (routes : after.routes = l.routes) (orders : after.orders = l.orders) :
    Sound after (claims ++ []) ∧ Keeps l after := by
  rw [List.append_nil]
  exact ⟨sound.congr routes orders, keeps_of_eq routes orders⟩

/-- The call commits nothing, and neither adds nor expires routes and orders. -/
def Call.isAside : Call → Bool
  | .insertOrder _ => false
  | .expireOrder _ => false
  | .insertRoute _ => false
  | .commit _ => false
  | .commitPlan .. => false
  | _ => true

/-- Such a call changes leases and deposit trackers at most. -/
theorem perform_frame (l : Ledger) {c : Call} (aside : c.isAside = true) :
    (l.perform c).2 =
      { l with
        tokensIssued := (l.perform c).2.tokensIssued
        leases := (l.perform c).2.leases
        trackers := (l.perform c).2.trackers } := by
  cases c with
  | insertOrder o => cases aside
  | expireOrder id => cases aside
  | insertRoute r => cases aside
  | commit b => cases aside
  | commitPlan writes p => cases aside
  | acquire chain holder ttl =>
      simp only [perform, acquire]
      split <;> rfl
  | renew lease ttl =>
      simp only [perform, renew]
      split
      · split <;> rfl
      · rfl
  | release lease =>
      simp only [perform, release]
      split
      · split <;> rfl
      · rfl
  | _ => rfl

/-- The call is a question. -/
def Call.asks : Call → Bool
  | .existingEvents _ => true
  | .pendingTransfers _ => true
  | .transfersInRange .. => true
  | .unmatchedConfirmed .. => true
  | .matchContext .. => true
  | .order _ => true
  | .route _ => true
  | _ => false

/-- A question changes nothing. -/
theorem perform_asks (l : Ledger) {c : Call} (asks : c.asks = true) :
    (l.perform c).2 = l := by
  cases c with
  | existingEvents keys => rfl
  | pendingTransfers chain => rfl
  | transfersInRange chain low high => rfl
  | unmatchedConfirmed key token => rfl
  | matchContext chain keys => rfl
  | order id => rfl
  | route id => rfl
  | _ => cases asks

/-- What is refused changes nothing. -/
theorem attempt_refused {l : Ledger} {result : Except LedgerError Ledger}
    {e : LedgerError} (refused : (l.attempt result).1 = .error e) :
    (l.attempt result).2 = l := by
  cases result with
  | ok after => cases refused
  | error e => rfl

/-- Every proper call keeps the settlement sound and what is settled as it is. -/
theorem Sound.perform {l : Ledger} {claims : List Claim} (sound : Sound l claims)
    (c : Call) (proper : c.Proper l) :
    Sound (l.perform c).2 (claims ++ c.settled l) ∧ Keeps l (l.perform c).2 := by
  cases c with
  | commit b =>
      simp only [Call.Proper, Call.settled, Ledger.perform] at proper ⊢
      cases committed : l.commit b with
      | error e => exact safe_of_eq sound rfl rfl
      | ok after =>
          simp only [committed] at proper
          exact (committed_of_commit committed).toBooked.safe sound proper
  | commitPlan writes p =>
      simp only [Call.Proper, Call.settled, Ledger.perform] at proper ⊢
      cases committed : l.commitPlan writes p with
      | error e => exact safe_of_eq sound rfl rfl
      | ok after =>
          simp only [committed] at proper
          exact (booked_of_commitPlan committed).safe sound proper
  | insertOrder o =>
      rw [show Call.settled l (.insertOrder o) = [] from rfl, List.append_nil]
      exact insertOrder_safe sound proper.1 proper.2
  | insertRoute r =>
      rw [show Call.settled l (.insertRoute r) = [] from rfl, List.append_nil]
      exact insertRoute_safe sound proper.1 proper.2.1 proper.2.2
  | expireOrder id =>
      rw [show Call.settled l (.expireOrder id) = [] from rfl, List.append_nil]
      simp only [Ledger.perform]
      cases expired : l.expireOrder id with
      | error e => exact ⟨sound, Keeps.refl l⟩
      | ok result => exact expireOrder_safe sound expired
  | _ =>
      exact safe_of_eq sound (by rw [perform_frame l rfl]) (by rw [perform_frame l rfl])

end Ledger

/-! ## Runs -/

/-- The ledger and all claims committed so far, in their order. -/
structure Books where
  ledger : Ledger
  claims : List Claim

namespace Books

def empty : Books := ⟨.empty, []⟩

/-- The books after a call, whether it was accepted or refused. -/
def call (s : Books) (c : Ledger.Call) : Books :=
  ⟨(s.ledger.perform c).2, s.claims ++ c.settled s.ledger⟩

/-- What was ever claimed on the routes of an order. -/
def claimedOn (s : Books) (order : OrderId) : Nat :=
  let onOrder := s.claims.filter fun c =>
    (s.ledger.routes.get? c.routeId).any (·.orderId == order)
  (onOrder.map (·.amount.units)).sum

/-- Somebody makes a call, or time goes on. -/
inductive Step : Books → Books → Prop where
  | call (s : Books) (c : Ledger.Call) (proper : c.Proper s.ledger) : Step s (s.call c)
  | wait (s : Books) (ticks : Nat) : Step s { s with ledger := s.ledger.wait ticks }

/-- Any calls in any order. -/
abbrev Run : Books → Books → Prop := Relation.ReflTransGen Step

theorem sound_step {s after : Books} (sound : s.ledger.Sound s.claims)
    (step : Step s after) :
    after.ledger.Sound after.claims ∧ s.ledger.Keeps after.ledger := by
  cases step with
  | call c proper => exact sound.perform c proper
  | wait ticks => exact ⟨sound.congr rfl rfl, Ledger.keeps_of_eq rfl rfl⟩

theorem sound_run {s after : Books} (sound : s.ledger.Sound s.claims)
    (run : Run s after) :
    after.ledger.Sound after.claims ∧ s.ledger.Keeps after.ledger := by
  induction run with
  | refl => exact ⟨sound, Ledger.Keeps.refl _⟩
  | tail _ step ih =>
      obtain ⟨soundThere, keeps⟩ := ih
      obtain ⟨soundAfter, keepsLast⟩ := sound_step soundThere step
      exact ⟨soundAfter, keeps.trans keepsLast⟩

/-- The claims on the routes of an order are the claims that name it. -/
theorem claimedOn_eq {s : Books} (sound : s.ledger.Sound s.claims) (order : OrderId) :
    s.claimedOn order = Claim.sumFor s.claims order := by
  have sameClaims : s.claims.filter (fun c =>
      (s.ledger.routes.get? c.routeId).any (·.orderId == order)) =
      s.claims.filter (·.orderId == order) := by
    apply List.filter_congr
    intro c member
    obtain ⟨r, found, ofOrder⟩ := sound.claimed c member
    simp [found, ofOrder]
  simp only [claimedOn, sameClaims, Claim.sumFor]

/-- Whatever calls are made in whatever order:  a route is consumed exactly if it has a
consumer, and then stays as it is;  no transfer consumes two routes;  an order has
received what was claimed on its routes, as far as an amount goes;  it is paid exactly
if that covers its amount, and it keeps the status in which it is closed. -/
theorem settlement_safe {s : Books} (reached : Run empty s) :
    (∀ id r, s.ledger.routes.get? id = some r →
      (r.status = .consumed ↔ r.consumedBy.isSome) ∧
      (r.status = .consumed → ∀ later, Run s later →
        later.ledger.routes.get? id = some r)) ∧
    (∀ id id' r r' t, s.ledger.routes.get? id = some r →
      s.ledger.routes.get? id' = some r' →
      r.consumedBy = some t → r'.consumedBy = some t → id = id') ∧
    (∀ id o, s.ledger.orders.get? id = some o →
      o.totalPaid.units = min (s.claimedOn id) (1 <<< 128 - 1)) ∧
    ∀ id o, s.ledger.orders.get? id = some o →
      (if o.amount ≤ o.totalPaid then o.status = .paid
        else o.status = .open ∨ o.status = .expired) ∧
      (o.status ≠ .open → ∀ later, Run s later →
        ∃ o', later.ledger.orders.get? id = some o' ∧ o'.status = o.status) := by
  have sound := (sound_run Ledger.sound_empty reached).1
  refine ⟨fun id r found => ⟨sound.consumed_iff id r found, ?_⟩,
    sound.consumer_unique, ?_, ?_⟩
  · intro consumed later run
    obtain ⟨r', foundLater, change⟩ := (sound_run sound run).2.route id r found
    rcases change with rfl | ⟨isOpen, -⟩
    · exact foundLater
    · rw [consumed] at isOpen
      cases isOpen
  · intro id o found
    rw [claimedOn_eq sound]
    exact sound.total id o found
  · intro id o found
    have paid_iff := sound.paid_iff id o found
    constructor
    · split
      · rename_i covered
        exact paid_iff.2 covered
      · rename_i short
        cases status : o.status with
        | «open» => exact Or.inl rfl
        | paid => exact absurd (paid_iff.1 status) short
        | expired => exact Or.inr rfl
    · intro closed later run
      obtain ⟨o', foundLater, final⟩ := (sound_run sound run).2.order id o found
      exact ⟨o', foundLater, final closed⟩

/-- An order over five units. -/
def sampleOrder : Order :=
  ⟨⟨.make 1 0⟩, ⟨5, by decide⟩, .native ⟨1⟩, "invoice", .open, .zero, default⟩

/-- A route of the order. -/
def sampleRoute : Route :=
  ⟨⟨.make 2 0⟩, sampleOrder.id, .blockchain ⟨1⟩ .zero,
    .native ⟨1⟩, .atLeast, none, .open, none, default⟩

/-- A payment of seven units over the route. -/
def sampleClaim : Claim :=
  ⟨sampleRoute.id, sampleOrder.id, ⟨.make 3 0⟩, ⟨1⟩, ⟨7, by decide⟩, none⟩

/-- The order is placed, its route is opened and paid. -/
def sample : Books :=
  ((empty.call (.insertOrder sampleOrder)).call (.insertRoute sampleRoute)).call
    (.commitPlan [] ⟨[sampleClaim], []⟩)

theorem run_sample : Run empty sample := by
  have placed : Step empty (empty.call (.insertOrder sampleOrder)) :=
    .call _ _ ⟨⟨rfl, rfl, by decide⟩, rfl⟩
  have opened :=
    Step.call (empty.call (.insertOrder sampleOrder)) (.insertRoute sampleRoute)
    ⟨⟨rfl, rfl⟩, rfl, sampleOrder, rfl⟩
  refine ((Relation.ReflTransGen.single placed).tail opened).tail (.call _ _ ⟨rfl, ?_⟩)
  decide

/-- The route of the example is consumed and stays so, and its order has
received seven units. -/
theorem settlement_safe_sample :
    (∃ r, sample.ledger.routes.get? sampleRoute.id = some r ∧ r.status = .consumed ∧
      ∀ later, Run sample later → later.ledger.routes.get? sampleRoute.id = some r) ∧
    ∃ o, sample.ledger.orders.get? sampleOrder.id = some o ∧ o.status = .paid ∧
      o.totalPaid.units = min (sample.claimedOn sampleOrder.id) (1 <<< 128 - 1) := by
  obtain ⟨routes, -, totals, -⟩ := settlement_safe run_sample
  constructor
  · have found : sample.ledger.routes.get? sampleRoute.id =
        some (sampleRoute.consume sampleClaim.transferId) := rfl
    exact ⟨_, found, rfl, (routes _ _ found).2 rfl⟩
  · have found : sample.ledger.orders.get? sampleOrder.id =
        some (sampleOrder.pay sampleClaim.amount) := rfl
    exact ⟨_, found, rfl, totals _ _ found⟩

end Books

end Paywatch
