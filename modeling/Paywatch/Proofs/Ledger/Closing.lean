import Mathlib.Data.List.Nodup
import Paywatch.Proofs.Ledger.Settlement
import Paywatch.Proofs.Matching.Plan

/-!
# What is open was left alone

Whatever call is made, routes and orders stay as they are until they are open no more.
Where every claim covers what its order owes, a claim closes its route and its order for
good.  So whatever is open now was exactly so whenever a plan looked at it, and a plan
whose claims are settled misses nothing:  none of the transfers that it went through
could settle an open route that it saw.
-/

namespace Paywatch

namespace Order

theorem isOpen_pay_of_closed {o : Order} (closed : o.isOpen = false) (amount : Amount) :
    (o.pay amount).isOpen = false := by
  simp only [isOpen, pay]
  split
  · rfl
  · exact closed

theorem isOpen_pay_of_covered {o : Order} {amount : Amount}
    (covered : o.amount ≤ o.totalPaid.addCapped amount) :
    (o.pay amount).isOpen = false := by
  simp [isOpen, pay, covered]

end Order

namespace Ledger

/-- What was there is still there, and as it was unless it is open no more.  A route
that had a consumer is as it was. -/
structure Closes (l after : Ledger) : Prop where
  route : ∀ id r, l.routes.get? id = some r → ∃ r', after.routes.get? id = some r' ∧
    (r' = r ∨ r.consumedBy = none ∧ r'.isOpen = false)
  order : ∀ id o, l.orders.get? id = some o → ∃ o', after.orders.get? id = some o' ∧
    (o' = o ∨ o'.isOpen = false)

theorem closes_of_eq {l after : Ledger} (routes : after.routes = l.routes)
    (orders : after.orders = l.orders) : Closes l after where
  route id r found := ⟨r, by rw [routes, found], Or.inl rfl⟩
  order id o found := ⟨o, by rw [orders, found], Or.inl rfl⟩

theorem Closes.refl (l : Ledger) : Closes l l := closes_of_eq rfl rfl

theorem Closes.trans {l m n : Ledger} (first : Closes l m) (second : Closes m n) :
    Closes l n where
  route := by
    intro id r found
    obtain ⟨s, foundThen, change⟩ := first.route id r found
    obtain ⟨s', foundLast, change'⟩ := second.route id s foundThen
    refine ⟨s', foundLast, ?_⟩
    rcases change with rfl | ⟨unconsumed, closed⟩
    · exact change'
    · rcases change' with rfl | ⟨-, closed'⟩
      · exact Or.inr ⟨unconsumed, closed⟩
      · exact Or.inr ⟨unconsumed, closed'⟩
  order := by
    intro id o found
    obtain ⟨p, foundThen, change⟩ := first.order id o found
    obtain ⟨p', foundLast, change'⟩ := second.order id p foundThen
    refine ⟨p', foundLast, ?_⟩
    rcases change with rfl | closed
    · exact change'
    · rcases change' with rfl | closed'
      · exact Or.inr closed
      · exact Or.inr closed'

/-- A route that is open now was the same before. -/
theorem Closes.open_route {l after : Ledger} {id : RouteId} {r r' : Route}
    (closes : Closes l after) (before : l.routes.get? id = some r)
    (found : after.routes.get? id = some r') (isOpen : r'.isOpen = true) : r = r' := by
  obtain ⟨s, there, change⟩ := closes.route id r before
  obtain rfl := Option.some.inj (there.symm.trans found)
  rcases change with same | ⟨-, closed⟩
  · exact same.symm
  · rw [closed] at isOpen
    cases isOpen

/-- An order that is open now was the same before. -/
theorem Closes.open_order {l after : Ledger} {id : OrderId} {o o' : Order}
    (closes : Closes l after) (before : l.orders.get? id = some o)
    (found : after.orders.get? id = some o') (isOpen : o'.isOpen = true) : o = o' := by
  obtain ⟨p, there, change⟩ := closes.order id o before
  obtain rfl := Option.some.inj (there.symm.trans found)
  rcases change with same | closed
  · exact same.symm
  · rw [closed] at isOpen
    cases isOpen

theorem Closes.isClaimed {l after : Ledger} {t : TransferId} (closes : Closes l after)
    (claimed : l.isClaimed t = true) : after.isClaimed t = true := by
  obtain ⟨id, r, found, consumed⟩ := isClaimed_iff.1 claimed
  obtain ⟨r', there, change⟩ := closes.route id r found
  apply isClaimed_iff.2
  rcases change with rfl | ⟨unconsumed, -⟩
  · exact ⟨id, r', there, consumed⟩
  · rw [unconsumed] at consumed
    cases consumed

/-- The transfer of a claim is used, and its route and its order are open no more. -/
structure Concludes (l : Ledger) (c : Claim) : Prop where
  claimed : l.isClaimed c.transferId = true
  route : ∃ r, l.routes.get? c.routeId = some r ∧ r.isOpen = false
  order : ∃ o, l.orders.get? c.orderId = some o ∧ o.isOpen = false

theorem Concludes.closes {l after : Ledger} {c : Claim} (concludes : Concludes l c)
    (closes : Closes l after) : Concludes after c where
  claimed := closes.isClaimed concludes.claimed
  route := by
    obtain ⟨r, found, closed⟩ := concludes.route
    obtain ⟨r', there, change⟩ := closes.route _ r found
    refine ⟨r', there, ?_⟩
    rcases change with rfl | ⟨-, closed'⟩
    · exact closed
    · exact closed'
  order := by
    obtain ⟨o, found, closed⟩ := concludes.order
    obtain ⟨o', there, change⟩ := closes.order _ o found
    refine ⟨o', there, ?_⟩
    rcases change with rfl | closed'
    · exact closed
    · exact closed'

/-- Routes and orders are kept under their own identifiers, and every
route has its order. -/
structure Filed (l : Ledger) : Prop where
  route : ∀ id r, l.routes.get? id = some r → r.id = id ∧
    ∃ o, l.orders.get? r.orderId = some o
  order : ∀ id o, l.orders.get? id = some o → o.id = id

theorem filed_empty : Filed .empty where
  route := by simp [empty]
  order := by simp [empty]

theorem Filed.congr {l after : Ledger} (filed : Filed l)
    (routes : after.routes = l.routes) (orders : after.orders = l.orders) :
    Filed after where
  route := by
    rw [routes, orders]
    exact filed.route
  order := by
    rw [orders]
    exact filed.order

/-! ## Claims -/

section Claims

variable {l : Ledger} {batch : List Claim}

/-- A route that was there is still there after a batch of claims:  as it was if no
claim names it, and otherwise consumed by one that does. -/
theorem route_foldl_writeClaim (batch : List Claim) {id : RouteId} {r : Route}
    (found : l.routes.get? id = some r) :
    ∃ r', (batch.foldl writeClaim l).routes.get? id = some r' ∧
      (r' = r ∧ (∀ c ∈ batch, c.routeId ≠ id) ∨
        r'.isOpen = false ∧ ∃ c ∈ batch, c.routeId = id ∧
          r'.consumedBy = some c.transferId) := by
  induction batch generalizing l r with
  | nil => exact ⟨r, found, Or.inl ⟨rfl, by simp⟩⟩
  | cons c rest ih =>
      rw [List.foldl_cons]
      have there := routes_writeClaim l c id
      rw [found] at there
      split at there
      · rename_i here
        obtain ⟨r', last, change⟩ := ih there
        refine ⟨r', last, Or.inr ?_⟩
        rcases change with ⟨rfl, -⟩ | ⟨closed, d, member, named⟩
        · exact ⟨rfl, c, List.mem_cons_self, here, rfl⟩
        · exact ⟨closed, d, List.mem_cons_of_mem _ member, named⟩
      · rename_i elsewhere
        obtain ⟨r', last, change⟩ := ih there
        refine ⟨r', last, ?_⟩
        rcases change with ⟨rfl, others⟩ | ⟨closed, d, member, named⟩
        · exact Or.inl ⟨rfl, List.forall_mem_cons.2 ⟨elsewhere, others⟩⟩
        · exact Or.inr ⟨closed, d, List.mem_cons_of_mem _ member, named⟩

/-- An order that was there is still there after a batch of claims, and closed if one of
them names it and each that does covers it. -/
theorem order_foldl_writeClaim (batch : List Claim) {id : OrderId} {o : Order}
    (found : l.orders.get? id = some o)
    (covered : ∀ c ∈ batch, c.orderId = id → o.isOpen = true →
      o.amount ≤ o.totalPaid.addCapped c.amount) :
    ∃ o', (batch.foldl writeClaim l).orders.get? id = some o' ∧
      (o' = o ∨ o'.isOpen = false) ∧
      ((∃ c ∈ batch, c.orderId = id) → o'.isOpen = false) := by
  induction batch generalizing l o with
  | nil => exact ⟨o, found, Or.inl rfl, by simp⟩
  | cons c rest ih =>
      rw [List.foldl_cons]
      rw [List.forall_mem_cons] at covered
      have there := orders_writeClaim l c id
      rw [found] at there
      split at there
      · rename_i here
        have closed : (o.pay c.amount).isOpen = false := by
          cases isOpen : o.isOpen with
          | false => exact Order.isOpen_pay_of_closed isOpen _
          | true => exact Order.isOpen_pay_of_covered (covered.1 here isOpen)
        obtain ⟨o', last, change, -⟩ := ih there fun d member named isOpen => by
          rw [closed] at isOpen
          cases isOpen
        have closedAfter : o'.isOpen = false := by
          rcases change with rfl | closed'
          · exact closed
          · exact closed'
        exact ⟨o', last, Or.inr closedAfter, fun _ => closedAfter⟩
      · rename_i elsewhere
        obtain ⟨o', last, change, closed⟩ := ih there covered.2
        refine ⟨o', last, change, ?_⟩
        rintro ⟨d, member, named⟩
        rcases List.mem_cons.1 member with rfl | later
        · exact absurd named elsewhere
        · exact closed ⟨d, later, named⟩

/-- An order that was there is still there after a batch of claims, and as it was unless
one of them names it. -/
theorem order_kept_or_paid (batch : List Claim) {id : OrderId} {o : Order}
    (found : l.orders.get? id = some o) :
    ∃ o', (batch.foldl writeClaim l).orders.get? id = some o' ∧
      (o' = o ∨ ∃ c ∈ batch, c.orderId = id) := by
  induction batch generalizing l o with
  | nil => exact ⟨o, found, Or.inl rfl⟩
  | cons c rest ih =>
      rw [List.foldl_cons]
      have there := orders_writeClaim l c id
      rw [found] at there
      split at there
      · rename_i here
        obtain ⟨o', last, -⟩ := ih there
        exact ⟨o', last, Or.inr ⟨c, List.mem_cons_self, here⟩⟩
      · obtain ⟨o', last, change⟩ := ih there
        refine ⟨o', last, ?_⟩
        rcases change with rfl | ⟨d, member, named⟩
        · exact Or.inl rfl
        · exact Or.inr ⟨d, List.mem_cons_of_mem _ member, named⟩

/-- An order after a batch of claims was there before, under the same identifier. -/
theorem id_of_orders_foldl_writeClaim {id : OrderId} {o : Order}
    (found : (batch.foldl writeClaim l).orders.get? id = some o) :
    ∃ p, l.orders.get? id = some p ∧ p.id = o.id := by
  induction batch generalizing l with
  | nil => exact ⟨o, found, rfl⟩
  | cons c rest ih =>
      obtain ⟨p, there, sameId⟩ := ih found
      rw [orders_writeClaim] at there
      split at there
      · obtain ⟨q, before, rfl⟩ := Option.map_eq_some_iff.1 there
        exact ⟨q, before, sameId⟩
      · exact ⟨p, there, sameId⟩

/-- Claims that use a route once each, and cover what the open orders among theirs owe. -/
structure Covers (l : Ledger) (batch : List Claim) : Prop where
  once : (batch.map (·.routeId)).Nodup
  covered : ∀ c ∈ batch, ∀ o, l.orders.get? c.orderId = some o → o.isOpen = true →
    o.amount ≤ o.totalPaid.addCapped c.amount

theorem covers_nil (l : Ledger) : Covers l [] := ⟨by simp, by simp⟩

variable {after : Ledger} {writes : List TransferWrite}

theorem booked_nothing (l : Ledger) : Booked l [] [] l :=
  ⟨by simp, by simp, rfl, rfl, rfl, rfl⟩

theorem Booked.closes (booked : Booked l writes batch after) (covers : Covers l batch) :
    Closes l after where
  route := by
    intro id r found
    rw [booked.routes]
    obtain ⟨r', there, change⟩ := route_foldl_writeClaim batch found
    refine ⟨r', there, ?_⟩
    rcases change with ⟨same, -⟩ | ⟨closed, c, member, rfl, -⟩
    · exact Or.inl same
    · obtain ⟨⟨s, before, -, unconsumed⟩, -⟩ :=
        checkClaim_eq_ok (booked.claimable c member)
      obtain rfl := Option.some.inj (found.symm.trans before)
      exact Or.inr ⟨unconsumed, closed⟩
  order := by
    intro id o found
    rw [booked.orders]
    obtain ⟨o', there, change, -⟩ := order_foldl_writeClaim batch found
      fun c member named isOpen => covers.covered c member o (by rw [named, found]) isOpen
    exact ⟨o', there, change⟩

theorem Booked.concludes (booked : Booked l writes batch after) (covers : Covers l batch)
    {c : Claim} (member : c ∈ batch) : Concludes after c := by
  obtain ⟨⟨r, routeFound, -⟩, ⟨o, orderFound, -⟩, -⟩ :=
    checkClaim_eq_ok (booked.claimable c member)
  obtain ⟨r', there, change⟩ := route_foldl_writeClaim batch routeFound
  obtain ⟨o', placed, -, closed⟩ := order_foldl_writeClaim batch orderFound
    fun d among named isOpen =>
      covers.covered d among o (by rw [named, orderFound]) isOpen
  rcases change with ⟨-, unnamed⟩ | ⟨routeClosed, d, among, sameRoute, consumed⟩
  · exact absurd rfl (unnamed c member)
  · obtain rfl := List.inj_on_of_nodup_map covers.once among member sameRoute
    constructor
    · apply isClaimed_iff.2
      exact ⟨d.routeId, r', by rw [booked.routes, there], consumed⟩
    · exact ⟨r', by rw [booked.routes, there], routeClosed⟩
    · exact ⟨o', by rw [booked.orders, placed], closed ⟨d, member, rfl⟩⟩

theorem Booked.filed (booked : Booked l writes batch after) (filed : Filed l) :
    Filed after where
  route := by
    intro id r found
    rw [booked.routes] at found
    obtain ⟨s, before, change⟩ := routes_foldl_writeClaim found
    obtain ⟨sameId, o, placed⟩ := filed.route id s before
    obtain ⟨o', stays, -⟩ := order_kept_or_paid batch placed
    rw [← booked.orders] at stays
    rcases change with rfl | ⟨c, -, -, rfl⟩
    · exact ⟨sameId, o', stays⟩
    · exact ⟨sameId, o', stays⟩
  order := by
    intro id o found
    rw [booked.orders] at found
    obtain ⟨p, before, sameId⟩ := id_of_orders_foldl_writeClaim found
    rw [← sameId]
    exact filed.order id p before

end Claims

/-! ## Calls -/

/-- The transfers that a call writes: those of a commit that is accepted. -/
def Call.written (l : Ledger) : Call → List TransferWrite
  | .commit b => if (l.commit b).isOk then b.writes else []
  | .commitPlan writes p => if (l.commitPlan writes p).isOk then writes else []
  | _ => []

/-- What the ledger relies on and does not check, here: identifiers are new, a new route
has its order, and claims cover what they settle. -/
structure Call.Fits (l : Ledger) (c : Call) : Prop where
  newOrder : ∀ o, c = .insertOrder o → l.orders.get? o.id = none
  newRoute : ∀ r, c = .insertRoute r →
    l.routes.get? r.id = none ∧ ∃ o, l.orders.get? r.orderId = some o
  covers : Covers l (c.settled l)

/-- What a call leaves behind. -/
structure Performed (l : Ledger) (c : Call) : Prop where
  closes : Closes l (l.perform c).2
  filed : Filed (l.perform c).2
  concludes : ∀ k ∈ c.settled l, Concludes (l.perform c).2 k
  opened : ∀ id r, (l.perform c).2.routes.get? id = some r → r.isOpen = true →
    l.routes.get? id = some r ∨ c = .insertRoute r
  written : ∀ id t, (l.perform c).2.transfers.get? id = some t →
    l.transfers.get? id = some t ∨ .insert t ∈ c.written l ∨
    ∃ s, .update t s ∈ c.written l

/-- A transfer after some writes was there before or is one of those written. -/
theorem transfers_foldl_writeTransfer {l : Ledger} {writes : List TransferWrite}
    {id : TransferId} {t : Transfer}
    (found : (writes.foldl writeTransfer l).transfers.get? id = some t) :
    l.transfers.get? id = some t ∨ .insert t ∈ writes ∨ ∃ s, .update t s ∈ writes := by
  induction writes generalizing l with
  | nil => exact Or.inl found
  | cons w rest ih =>
      rcases ih found with there | inserted | ⟨s, updated⟩
      · cases w with
        | insert u =>
            simp only [writeTransfer] at there
            split at there
            · exact Or.inl there
            · rw [Table.get?_insert] at there
              split at there
              · cases there
                exact Or.inr (Or.inl List.mem_cons_self)
              · exact Or.inl there
        | update u s =>
            rw [writeTransfer, Table.get?_insert] at there
            split at there
            · cases there
              exact Or.inr (Or.inr ⟨s, List.mem_cons_self⟩)
            · exact Or.inl there
      · exact Or.inr (Or.inl (List.mem_cons_of_mem _ inserted))
      · exact Or.inr (Or.inr ⟨s, List.mem_cons_of_mem _ updated⟩)

/-- A commit books what it writes and settles, which is nothing if it is refused. -/
theorem booked_commit (l : Ledger) (b : Batch) :
    Booked l ((Call.commit b).written l) ((Call.commit b).settled l)
      (l.perform (.commit b)).2 := by
  simp only [Call.written, Call.settled, perform]
  cases committed : l.commit b with
  | error e => exact booked_nothing l
  | ok after => exact (committed_of_commit committed).toBooked

theorem booked_commitPlan (l : Ledger) (writes : List TransferWrite) (p : Plan) :
    Booked l ((Call.commitPlan writes p).written l) ((Call.commitPlan writes p).settled l)
      (l.perform (.commitPlan writes p)).2 := by
  simp only [Call.written, Call.settled, perform]
  cases committed : l.commitPlan writes p with
  | error e => exact booked_nothing l
  | ok after => exact booked_of_commitPlan committed

section Performed

variable {l : Ledger} (filed : Filed l)
include filed

theorem Booked.performed {c : Call}
    (booked : Booked l (c.written l) (c.settled l) (l.perform c).2)
    (covers : Covers l (c.settled l)) : Performed l c where
  closes := booked.closes covers
  filed := booked.filed filed
  concludes _ member := booked.concludes covers member
  opened id r found isOpen := by
    rw [booked.routes] at found
    obtain ⟨s, before, change⟩ := routes_foldl_writeClaim found
    rcases change with rfl | ⟨k, -, -, rfl⟩
    · exact Or.inl before
    · cases isOpen
  written id t found := by
    rw [booked.transfers] at found
    exact transfers_foldl_writeTransfer found

/-- A call that touches neither routes nor orders nor transfers. -/
theorem performed_of_eq {c : Call} (settled : c.settled l = [])
    (transfers : (l.perform c).2.transfers = l.transfers)
    (routes : (l.perform c).2.routes = l.routes)
    (orders : (l.perform c).2.orders = l.orders) : Performed l c where
  closes := closes_of_eq routes orders
  filed := filed.congr routes orders
  concludes := by simp [settled]
  opened id r found _ := by
    rw [routes] at found
    exact Or.inl found
  written id t found := by
    rw [transfers] at found
    exact Or.inl found

theorem performed_insertOrder {o : Order} (fresh : l.orders.get? o.id = none) :
    Performed l (.insertOrder o) where
  closes :=
    { route := fun id r found => ⟨r, found, Or.inl rfl⟩
      order := fun id p found => ⟨p, Table.get?_insert_of_fresh fresh found, Or.inl rfl⟩ }
  filed :=
    { route := by
        intro id r found
        obtain ⟨sameId, p, placed⟩ := filed.route id r found
        exact ⟨sameId, p, Table.get?_insert_of_fresh fresh placed⟩
      order := by
        intro id p found
        simp only [perform, insertOrder, Table.get?_insert] at found
        split at found
        · rename_i here
          cases found
          exact here
        · exact filed.order id p found }
  concludes := by simp [Call.settled]
  opened id r found _ := Or.inl found
  written id t found := Or.inl found

theorem performed_insertRoute {r : Route} (fresh : l.routes.get? r.id = none)
    (placed : ∃ o, l.orders.get? r.orderId = some o) : Performed l (.insertRoute r) where
  closes :=
    { route := fun id s found => ⟨s, Table.get?_insert_of_fresh fresh found, Or.inl rfl⟩
      order := fun id o found => ⟨o, found, Or.inl rfl⟩ }
  filed :=
    { route := by
        intro id s found
        simp only [perform, insertRoute, Table.get?_insert] at found
        split at found
        · rename_i here
          cases found
          exact ⟨here, placed⟩
        · exact filed.route id s found
      order := filed.order }
  concludes := by simp [Call.settled]
  opened id s found _ := by
    simp only [perform, insertRoute, Table.get?_insert] at found
    split at found
    · cases found
      exact Or.inr rfl
    · exact Or.inl found
  written id t found := Or.inl found

theorem performed_expireOrder (id : OrderId) : Performed l (.expireOrder id) := by
  cases expired : l.expireOrder id with
  | error e =>
      have same : (l.perform (.expireOrder id)).2 = l := by simp [perform, expired]
      apply performed_of_eq filed rfl <;> rw [same]
  | ok result =>
      have after : (l.perform (.expireOrder id)).2 = result.2 := by
        simp [perform, expired]
      rcases expireOrder_cases expired with ⟨o, found, -, change⟩ | same
      · rw [change] at after
        have stays : ∀ id' p, l.orders.get? id' = some p → ∃ p',
            (l.orders.insert id { o with status := .expired }).get? id' = some p' ∧
              (p' = p ∨ p'.isOpen = false) := by
          intro id' p before
          rw [Table.get?_insert]
          split
          · exact ⟨_, rfl, Or.inr rfl⟩
          · exact ⟨p, before, Or.inl rfl⟩
        constructor
        case closes =>
          rw [after]
          exact ⟨fun id' r before => ⟨r, before, Or.inl rfl⟩, stays⟩
        case filed =>
          rw [after]
          constructor
          · intro id' r before
            obtain ⟨sameId, p, placed⟩ := filed.route id' r before
            obtain ⟨p', there, -⟩ := stays _ p placed
            exact ⟨sameId, p', there⟩
          · intro id' p before
            rw [Table.get?_insert] at before
            split at before
            · rename_i here
              cases before
              exact (filed.order id o found).trans here
            · exact filed.order id' p before
        case concludes => simp [Call.settled]
        case opened =>
          rw [after]
          intro id' r before _
          exact Or.inl before
        case written =>
          rw [after]
          intro id' t before
          exact Or.inl before
      · apply performed_of_eq filed rfl <;> rw [after, same]

/-- Whatever fits may be called: what is open is left alone, and claims are concluded. -/
theorem performed_of_fits {c : Call} (fits : c.Fits l) : Performed l c := by
  cases c with
  | commit b => exact Booked.performed filed (booked_commit l b) fits.covers
  | commitPlan writes p =>
      exact Booked.performed filed (booked_commitPlan l writes p) fits.covers
  | insertOrder o => exact performed_insertOrder filed (fits.newOrder o rfl)
  | insertRoute r =>
      obtain ⟨fresh, placed⟩ := fits.newRoute r rfl
      exact performed_insertRoute filed fresh placed
  | expireOrder id => exact performed_expireOrder filed id
  | _ => apply performed_of_eq filed rfl <;> rw [perform_frame l rfl]

end Performed

end Ledger

end Paywatch
