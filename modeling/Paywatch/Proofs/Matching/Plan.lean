import Paywatch.Matching.Plan
import Paywatch.Proofs.Basic

/-!
# What a plan settles

A plan goes through the confirmed transfers one after the other and changes the context
as it goes.  Its claims are on routes that were open in the context it started from.
Without partial fills every claim covers what its order owed there.  Nothing is passed
over: a transfer that the plan leaves without a route could settle none of the routes
and orders that the plan leaves alone.
-/

namespace Paywatch

section First

variable {α : Type} {before : α → α → Bool}

theorem mem_of_firstBy {xs : List α} {x : α} (first : firstBy before xs = some x) :
    x ∈ xs := by
  cases xs with
  | nil => cases first
  | cons y rest =>
      obtain rfl := Option.some.inj first
      clear first
      induction rest generalizing y with
      | nil => exact List.mem_cons_self
      | cons z rest ih =>
          rw [List.foldl_cons]
          rcases List.mem_cons.1 (ih (if before z y then z else y)) with here | later
          · rw [here]
            split <;> simp
          · exact List.mem_cons_of_mem _ (List.mem_cons_of_mem _ later)

theorem firstBy_eq_none {xs : List α} : firstBy before xs = none ↔ xs = [] := by
  cases xs <;> simp [firstBy]

end First

/-- The claim of a transfer on a route. -/
structure Claim.Pays (c : Claim) (r : Route) (t : Transfer) : Prop where
  route : c.routeId = r.id
  order : c.orderId = r.orderId
  transfer : c.transferId = t.id
  amount : c.amount = t.amount

namespace Claim

/-- The orders after claims have paid them, one after the other. -/
def payAll (orders : Table OrderId Order) (claims : List Claim) : Table OrderId Order :=
  claims.foldl (fun paid c => paid.modify c.orderId (·.pay c.amount)) orders

theorem payAll_snoc (orders : Table OrderId Order) (claims : List Claim) (c : Claim) :
    payAll orders (claims ++ [c]) =
      (payAll orders claims).modify c.orderId (·.pay c.amount) := by
  rw [payAll, List.foldl_append]
  rfl

/-- What claims make of an order depends on nothing but the order. -/
theorem get?_payAll_congr {orders orders' : Table OrderId Order} {id : OrderId}
    (same : orders.get? id = orders'.get? id) (claims : List Claim) :
    (payAll orders claims).get? id = (payAll orders' claims).get? id := by
  induction claims generalizing orders orders' with
  | nil => exact same
  | cons c rest ih =>
      apply ih
      rw [Table.get?_modify, Table.get?_modify, same]

/-- Claims make no order. -/
theorem get?_of_payAll {orders : Table OrderId Order} {claims : List Claim} {id : OrderId}
    {o : Order} (found : (payAll orders claims).get? id = some o) :
    ∃ p, orders.get? id = some p := by
  induction claims generalizing orders with
  | nil => exact ⟨o, found⟩
  | cons c rest ih =>
      obtain ⟨p, there⟩ := ih found
      rw [Table.get?_modify] at there
      split at there
      · obtain ⟨q, before, -⟩ := Option.map_eq_some_iff.1 there
        exact ⟨q, before⟩
      · exact ⟨p, there⟩

end Claim

namespace MatchingRules

variable {rules : MatchingRules} {ctx now : MatchContext} {t : Transfer} {key : MatchKey}

theorem eligible?_eq_some {r : Route} {due : Amount}
    (accepted : rules.eligible? ctx t key r = some due) :
    r.isOpen = true ∧ ∃ o, ctx.orders.get? r.orderId = some o ∧ o.isOpen = true ∧
      rules.acceptsAmount r.policy t.amount o.due = true := by
  unfold eligible? at accepted
  split at accepted
  · rename_i fits
    simp only [Bool.and_eq_true] at fits
    split at accepted
    · rename_i o found
      split at accepted
      · rename_i open_accepts
        simp only [Bool.and_eq_true] at open_accepts
        exact ⟨fits.1.1.1, o, found, open_accepts⟩
      · cases accepted
    · cases accepted
  · cases accepted

/-- Of the context, only the order of the route matters. -/
theorem eligible?_congr {r : Route}
    (same : now.orders.get? r.orderId = ctx.orders.get? r.orderId) :
    rules.eligible? now t key r = rules.eligible? ctx t key r := by
  simp only [eligible?, same]

theorem mem_candidates {c : Candidate} : c ∈ rules.candidates ctx t key ↔
    ctx.routes[c.index]? = some c.route ∧
      rules.eligible? ctx t key c.route = some c.due := by
  simp only [candidates, List.mem_filterMap, Prod.exists, Option.map_eq_some_iff,
    List.mem_zipIdx_iff_getElem?]
  constructor
  · rintro ⟨route, index, found, due, accepted, rfl⟩
    exact ⟨found, accepted⟩
  · rintro ⟨found, accepted⟩
    exact ⟨c.route, c.index, found, c.due, accepted, rfl⟩

theorem select?_eq_some {c : Candidate} (selected : rules.select? ctx t = some c) :
    ∃ key, ctx.routes[c.index]? = some c.route ∧
      rules.eligible? ctx t key c.route = some c.due := by
  obtain ⟨key, -, first⟩ := Option.bind_eq_some_iff.1 selected
  exact ⟨key, mem_candidates.1 (mem_of_firstBy first)⟩

theorem not_eligible_of_select? (nothing : rules.select? ctx t = none)
    (paysInto : MatchKey.ofTransfer? t = some key) {r : Route} (member : r ∈ ctx.routes) :
    rules.eligible? ctx t key r = none := by
  rw [select?, paysInto, Option.bind_some, firstBy_eq_none] at nothing
  obtain ⟨index, found⟩ := List.getElem?_of_mem member
  cases accepted : rules.eligible? ctx t key r with
  | none => rfl
  | some due =>
      have candidate : (⟨index, r, due⟩ : Candidate) ∈ rules.candidates ctx t key :=
        mem_candidates.2 ⟨found, accepted⟩
      rw [nothing] at candidate
      cases candidate

/-- An amount that is accepted whole covers what an order owes. -/
theorem covers_of_accepts (whole : rules.partialFills = false) {policy : AmountPolicy}
    {amount : Amount} {o : Order}
    (accepted : rules.acceptsAmount policy amount o.due = true) :
    o.amount ≤ o.totalPaid.addCapped amount := by
  have enough : o.due.units ≤ amount.units := by
    simp only [acceptsAmount, whole, Bool.or_false, Bool.and_eq_true] at accepted
    cases policy with
    | exact =>
        exact Nat.le_of_eq (congrArg Amount.units (beq_iff_eq.1 accepted.2).symm)
    | atLeast => exact of_decide_eq_true accepted.2
  have bound := o.amount.units_lt
  show o.amount.units ≤ (o.totalPaid.addCapped amount).units
  simp only [Order.due, Amount.units_sub] at enough
  rw [Amount.units_addCapped]
  omega

/-! ## One transfer -/

/-- What a transfer does to the claims and the context: it settles a
candidate, or nothing. -/
theorem planOne_cases (rules : MatchingRules) (state : Draft × MatchContext)
    (t : Transfer) :
    (∃ c, rules.select? state.2 t = some c ∧
      (rules.planOne state t).1.claims = state.1.claims ++ [claimOf t c] ∧
      (rules.planOne state t).2.routes = state.2.routes.modify c.index (·.consume t.id) ∧
      (rules.planOne state t).2.orders =
        state.2.orders.modify c.route.orderId (·.pay t.amount)) ∨
    rules.select? state.2 t = none ∧
      (rules.planOne state t).1.claims = state.1.claims ∧
      (rules.planOne state t).2.routes = state.2.routes ∧
      (rules.planOne state t).2.orders = state.2.orders := by
  obtain ⟨draft, ctx⟩ := state
  simp only [planOne]
  cases selected : rules.select? ctx t with
  | none =>
      refine Or.inr ⟨rfl, ?_⟩
      simp only
      split <;> exact ⟨rfl, rfl, rfl⟩
  | some c =>
      refine Or.inl ⟨c, rfl, ?_⟩
      simp only [consume]
      split <;> exact ⟨rfl, rfl, rfl⟩

/-- How the context of a plan goes on:  what is open in it was so from the start. -/
structure Follows (rules : MatchingRules) (ctx now : MatchContext) : Prop where
  routes : ∀ r ∈ now.routes, r.isOpen = true → r ∈ ctx.routes
  orders : rules.partialFills = false → ∀ id o, now.orders.get? id = some o →
    o.isOpen = true →
    ctx.orders.get? id = some o

theorem Follows.refl (ctx : MatchContext) : Follows rules ctx ctx :=
  ⟨fun _ member _ => member, fun _ _ _ found _ => found⟩

theorem Follows.planOne {state : Draft × MatchContext}
    (follows : Follows rules ctx state.2) (t : Transfer) :
    Follows rules ctx (rules.planOne state t).2 := by
  rcases planOne_cases rules state t with
    ⟨c, selected, -, routes, orders⟩ | ⟨-, -, routes, orders⟩
  · constructor
    · intro r member isOpen
      rw [routes] at member
      obtain ⟨index, found⟩ := List.getElem?_of_mem member
      rw [List.getElem?_modify] at found
      obtain ⟨s, foundBefore, rfl⟩ := Option.map_eq_some_iff.1 found
      split at isOpen
      · cases isOpen
      · rename_i elsewhere
        rw [if_neg elsewhere]
        rw [if_neg elsewhere] at member
        exact follows.routes s (List.mem_of_getElem? foundBefore) isOpen
    · intro whole id o found isOpen
      rw [orders, Table.get?_modify] at found
      split at found
      · rename_i here
        -- The order was covered, so it is open no more.
        obtain ⟨p, foundBefore, rfl⟩ := Option.map_eq_some_iff.1 found
        obtain ⟨key, -, accepted⟩ := select?_eq_some selected
        obtain ⟨-, p', foundOrder, -, accepts⟩ := eligible?_eq_some accepted
        rw [here, foundBefore] at foundOrder
        cases foundOrder
        have covered := covers_of_accepts whole accepts
        simp [Order.isOpen, Order.pay, covered] at isOpen
      · exact follows.orders whole id o found isOpen
  · constructor
    · rw [routes]
      exact follows.routes
    · rw [orders]
      exact follows.orders

/-! ## All transfers -/

/-- The confirmed transfers have their turns. -/
theorem mem_inOrder {ts : List Transfer} :
    t ∈ inOrder ts ↔ t ∈ ts ∧ t.status = .confirmed := by
  rw [inOrder, mem_sortBy, List.mem_filter, beq_iff_eq]

/-- Each new claim is that of a transfer on the candidate it selected, in
a context on the way. -/
theorem selected_of_mem_foldl {ts : List Transfer} {state : Draft × MatchContext}
    (follows : Follows rules ctx state.2) {k : Claim}
    (member : k ∈ (ts.foldl rules.planOne state).1.claims) : k ∈ state.1.claims ∨
      ∃ t ∈ ts, ∃ now c, Follows rules ctx now ∧ rules.select? now t = some c ∧
        k = claimOf t c := by
  induction ts generalizing state with
  | nil => exact Or.inl member
  | cons t rest ih =>
      rcases ih (follows.planOne t) member with old | ⟨u, later, selection⟩
      · rcases planOne_cases rules state t with ⟨c, selected, claims, -⟩ | ⟨-, claims, -⟩
        · rw [claims] at old
          rcases List.mem_append.1 old with old | new
          · exact Or.inl old
          · obtain rfl := List.mem_singleton.1 new
            exact Or.inr ⟨t, List.mem_cons_self, state.2, c, follows, selected, rfl⟩
        · rw [claims] at old
          exact Or.inl old
      · exact Or.inr ⟨u, List.mem_cons_of_mem _ later, selection⟩

/-- The route that a transfer selects on the way was open in the context
from the start. -/
theorem Follows.route (follows : Follows rules ctx now) {c : Candidate}
    (selected : rules.select? now t = some c) : c.route ∈ ctx.routes := by
  obtain ⟨key, found, accepted⟩ := select?_eq_some selected
  exact follows.routes c.route (List.mem_of_getElem? found) (eligible?_eq_some accepted).1

/-- What is true of the claims of a plan. -/
structure Planned (rules : MatchingRules) (ctx : MatchContext) (ts : List Transfer)
    (claims : List Claim) : Prop where
  pays : ∀ c ∈ claims, ∃ r ∈ ctx.routes, ∃ t ∈ ts, c.Pays r t
  covers : rules.partialFills = false →
    ∀ c ∈ claims, ∃ o, ctx.orders.get? c.orderId = some o ∧
    o.amount ≤ o.totalPaid.addCapped c.amount

theorem planned_foldl {ts all : List Transfer} {state : Draft × MatchContext}
    (follows : Follows rules ctx state.2) (planned : Planned rules ctx all state.1.claims)
    (among : ∀ t ∈ ts, t ∈ all) :
    Planned rules ctx all (ts.foldl rules.planOne state).1.claims where
  pays k member := by
    rcases selected_of_mem_foldl follows member with
      old | ⟨t, turn, now, c, way, selected, rfl⟩
    · exact planned.pays k old
    · exact ⟨c.route, way.route selected, t, among t turn, rfl, rfl, rfl, rfl⟩
  covers whole k member := by
    rcases selected_of_mem_foldl follows member with
      old | ⟨t, -, now, c, way, selected, rfl⟩
    · exact planned.covers whole k old
    · obtain ⟨key, -, accepted⟩ := select?_eq_some selected
      obtain ⟨-, o, foundOrder, orderOpen, accepts⟩ := eligible?_eq_some accepted
      exact ⟨o, way.orders whole _ o foundOrder orderOpen,
        covers_of_accepts whole accepts⟩

/-- A plan is what all transfers settle, once its claims are checked. -/
theorem plan_eq_ok {ts : List Transfer} {draft : Draft}
    (ok : rules.plan ctx ts = .ok draft) :
    Claim.check draft.claims = .ok () ∧ (rules.planAll ctx ts).1 = draft := by
  unfold plan at ok
  simp only at ok
  cases checked : Claim.check (rules.planAll ctx ts).1.claims with
  | error e =>
      rw [checked] at ok
      cases ok
  | ok u =>
      rw [checked] at ok
      cases ok
      exact ⟨checked, rfl⟩

/-- The claims of a plan use every route and every transfer once, and each is that of a
confirmed transfer on a route of the context. -/
theorem planned_of_plan {ts : List Transfer} {draft : Draft}
    (ok : rules.plan ctx ts = .ok draft) :
    Claim.check draft.claims = .ok () ∧
      Planned rules ctx (ts.filter (·.status == .confirmed)) draft.claims := by
  obtain ⟨checked, rfl⟩ := plan_eq_ok ok
  refine ⟨checked, planned_foldl (Follows.refl ctx) ⟨by simp, by simp⟩ ?_⟩
  intro t member
  exact mem_sortBy.1 member

/-! ## What claims and deposits are made of -/

/-- A transfer settles a route of its token, into whose destination it paid. -/
theorem paysInto_of_select? {c : Candidate} (selected : rules.select? ctx t = some c) :
    MatchKey.ofTransfer? t = some c.route.destination.matchKey ∧
      c.route.token = t.token := by
  obtain ⟨key, paysInto, first⟩ := Option.bind_eq_some_iff.1 selected
  have accepted := (mem_candidates.1 (mem_of_firstBy first)).2
  obtain ⟨fits, -⟩ := Option.ite_none_right_eq_some.1 accepted
  simp only [Bool.and_eq_true, beq_iff_eq] at fits
  obtain ⟨⟨⟨-, token⟩, destination⟩, -⟩ := fits
  exact ⟨destination ▸ paysInto, token⟩

/-- Each claim of a plan is that of a transfer on a route of its token, into
whose destination it paid. -/
theorem paysInto_of_plan {ts : List Transfer} {draft : Draft}
    (ok : rules.plan ctx ts = .ok draft) {k : Claim} (member : k ∈ draft.claims) :
    ∃ r ∈ ctx.routes, ∃ t ∈ ts, k.Pays r t ∧
      MatchKey.ofTransfer? t = some r.destination.matchKey ∧ r.token = t.token := by
  obtain ⟨-, rfl⟩ := plan_eq_ok ok
  rcases selected_of_mem_foldl (Follows.refl ctx) member with
    none | ⟨t, turn, now, c, way, selected, rfl⟩
  · cases none
  · exact ⟨c.route, way.route selected, t, (mem_inOrder.1 turn).1,
      ⟨rfl, rfl, rfl, rfl⟩, paysInto_of_select? selected⟩

theorem transferId_of_deposit? {d : DepositDraft} (made : deposit? ctx t = some d) :
    d.transferId = t.id := by
  unfold deposit? at made
  split at made
  · cases made
  · obtain ⟨tracker, -, rfl⟩ := Option.map_eq_some_iff.1 made
    rfl

theorem deposits_planOne {state : Draft × MatchContext} {d : DepositDraft}
    (member : d ∈ (rules.planOne state t).1.deposits) :
    d ∈ state.1.deposits ∨ d.transferId = t.id := by
  obtain ⟨draft, now⟩ := state
  simp only [planOne] at member
  -- Whatever is selected, only the tracker that accepts the transfer adds a deposit.
  cases selected : rules.select? now t
  all_goals
    simp only [selected] at member
    split at member
    · rename_i e made
      rcases List.mem_append.1 member with old | new
      · exact Or.inl old
      · rw [List.mem_singleton.1 new]
        exact Or.inr (transferId_of_deposit? made)
    · exact Or.inl member

/-- Each deposit of a plan is that of one of the transfers. -/
theorem transfer_of_deposit {ts : List Transfer} {draft : Draft}
    (ok : rules.plan ctx ts = .ok draft) {d : DepositDraft}
    (member : d ∈ draft.deposits) : ∃ t ∈ ts, d.transferId = t.id := by
  have all : ∀ (rest : List Transfer) (state : Draft × MatchContext),
      (∀ t ∈ rest, t ∈ ts) → (∀ d ∈ state.1.deposits, ∃ t ∈ ts, d.transferId = t.id) →
      ∀ d ∈ (rest.foldl rules.planOne state).1.deposits, ∃ t ∈ ts,
      d.transferId = t.id := by
    intro rest
    induction rest with
    | nil => exact fun state _ given => given
    | cons t rest ih =>
        intro state among given
        rw [List.forall_mem_cons] at among
        refine ih _ among.2 fun d member => ?_
        rcases deposits_planOne member with old | own
        · exact given d old
        · exact ⟨t, among.1, own⟩
  obtain ⟨-, rfl⟩ := plan_eq_ok ok
  exact all _ _ (fun t turn => (mem_inOrder.1 turn).1) (by simp) d member

/-! ## One claim after the other -/

/-- Each claim was accepted for what its order owed after the claims before it. -/
def Accepts (rules : MatchingRules) (ctx : MatchContext) (claims : List Claim) : Prop :=
  ∀ earlier k later, claims = earlier ++ k :: later →
    ∃ r ∈ ctx.routes, k.routeId = r.id ∧ k.orderId = r.orderId ∧
      ∃ o, (Claim.payAll ctx.orders earlier).get? k.orderId = some o ∧
        rules.acceptsAmount r.policy k.amount o.due = true

theorem Accepts.snoc {claims : List Claim} (accepts : Accepts rules ctx claims)
    {k : Claim} {r : Route} (inContext : r ∈ ctx.routes) (route : k.routeId = r.id)
    (order : k.orderId = r.orderId) {o : Order}
    (found : (Claim.payAll ctx.orders claims).get? k.orderId = some o)
    (accepted : rules.acceptsAmount r.policy k.amount o.due = true) :
    Accepts rules ctx (claims ++ [k]) := by
  intro earlier c later same
  rcases List.eq_nil_or_concat later with rfl | ⟨init, last, rfl⟩
  · obtain ⟨rfl, here⟩ := List.append_inj' same rfl
    cases here
    exact ⟨r, inContext, route, order, o, found, accepted⟩
  · rw [List.concat_eq_append, ← List.cons_append, ← List.append_assoc] at same
    obtain ⟨rfl, -⟩ := List.append_inj' same rfl
    exact accepts earlier c init rfl

theorem accepts_foldl {ts : List Transfer} {state : Draft × MatchContext}
    (follows : Follows rules ctx state.2)
    (orders : state.2.orders = Claim.payAll ctx.orders state.1.claims)
    (accepts : Accepts rules ctx state.1.claims) :
    Accepts rules ctx (ts.foldl rules.planOne state).1.claims := by
  induction ts generalizing state with
  | nil => exact accepts
  | cons t rest ih =>
      rcases planOne_cases rules state t with
        ⟨c, selected, claims, -, paid⟩ | ⟨-, claims, -, kept⟩
      · obtain ⟨key, found, accepted⟩ := select?_eq_some selected
        obtain ⟨isOpen, o, foundOrder, -, accepted⟩ := eligible?_eq_some accepted
        have inContext := follows.routes c.route (List.mem_of_getElem? found) isOpen
        apply ih (follows.planOne t)
        · rw [paid, claims, Claim.payAll_snoc, orders]
          rfl
        · rw [claims]
          rw [orders] at foundOrder
          exact accepts.snoc inContext rfl rfl foundOrder accepted
      · apply ih (follows.planOne t)
        · rw [kept, claims, orders]
        · rw [claims]
          exact accepts

/-- Each claim of a plan was accepted for what its order owed when its turn came. -/
theorem accepts_of_plan {ts : List Transfer} {draft : Draft}
    (ok : rules.plan ctx ts = .ok draft) : Accepts rules ctx draft.claims := by
  obtain ⟨-, rfl⟩ := plan_eq_ok ok
  exact accepts_foldl (Follows.refl ctx) rfl fun earlier _ _ same => by
    cases earlier <;> cases same

theorem claims_prefix (rules : MatchingRules) (ts : List Transfer)
    (state : Draft × MatchContext) :
    state.1.claims <+: (ts.foldl rules.planOne state).1.claims := by
  induction ts generalizing state with
  | nil => exact List.prefix_rfl
  | cons t rest ih =>
      refine List.IsPrefix.trans ?_ (ih _)
      rcases planOne_cases rules state t with ⟨c, -, claims, -⟩ | ⟨-, claims, -⟩
      · rw [claims]
        exact List.prefix_append _ _
      · simp only [claims, List.prefix_rfl]

/-- While a plan leaves a route and its order alone, the route stays eligible for the same
transfers. -/
theorem not_eligible_foldl {ts : List Transfer} {state : Draft × MatchContext} {r : Route}
    (inContext : r ∈ state.2.routes)
    (alone : ∀ c ∈ (ts.foldl rules.planOne state).1.claims,
      c.routeId ≠ r.id ∧ c.orderId ≠ r.orderId)
    (member : t ∈ ts)
    (unclaimed : ∀ c ∈ (ts.foldl rules.planOne state).1.claims, c.transferId ≠ t.id)
    (paysInto : MatchKey.ofTransfer? t = some key) :
    rules.eligible? state.2 t key r = none := by
  induction ts generalizing state with
  | nil => cases member
  | cons u rest ih =>
      rw [List.foldl_cons] at alone unclaimed
      have kept := claims_prefix rules rest (rules.planOne state u)
      rcases planOne_cases rules state u with
        ⟨c, selected, claims, routes, orders⟩ | ⟨nothing, -, routes, orders⟩
      · have claimed :
          claimOf u c ∈ (rest.foldl rules.planOne (rules.planOne state u)).1.claims :=
          kept.mem (by rw [claims]; exact List.mem_append_right _ List.mem_cons_self)
        obtain ⟨otherRoute, otherOrder⟩ := alone _ claimed
        rcases List.mem_cons.1 member with rfl | later
        · exact absurd rfl (unclaimed _ claimed)
        · have stays : r ∈ (rules.planOne state u).2.routes := by
            rw [routes]
            obtain ⟨index, found⟩ := List.getElem?_of_mem inContext
            obtain ⟨_, foundCandidate, -⟩ := select?_eq_some selected
            refine List.mem_of_getElem? (i := index) ?_
            rw [List.getElem?_modify, found]
            split
            · rename_i same
              rw [same, found] at foundCandidate
              exact absurd (congrArg Route.id (Option.some.inj foundCandidate)).symm
                otherRoute
            · rfl
          rw [← ih stays alone later unclaimed]
          apply eligible?_congr
          rw [orders, Table.get?_modify]
          exact (if_neg otherOrder).symm
      · rcases List.mem_cons.1 member with rfl | later
        · exact not_eligible_of_select? nothing paysInto inContext
        · rw [← ih (by rwa [routes]) alone later unclaimed]
          apply eligible?_congr
          rw [orders]

/-- A confirmed transfer that the plan leaves without a route could settle no route that
the plan leaves alone together with its order. -/
theorem not_eligible_of_plan {ts : List Transfer} {draft : Draft}
    (ok : rules.plan ctx ts = .ok draft) {r : Route} (inContext : r ∈ ctx.routes)
    (alone : ∀ c ∈ draft.claims, c.routeId ≠ r.id ∧ c.orderId ≠ r.orderId)
    (member : t ∈ ts) (confirmed : t.status = .confirmed)
    (unclaimed : ∀ c ∈ draft.claims, c.transferId ≠ t.id)
    (paysInto : MatchKey.ofTransfer? t = some key) :
    rules.eligible? ctx t key r = none := by
  obtain ⟨-, rfl⟩ := plan_eq_ok ok
  have turn : t ∈ inOrder ts := mem_inOrder.2 ⟨member, confirmed⟩
  have start : r ∈ ((⟨[], []⟩, ctx) : Draft × MatchContext).2.routes := inContext
  exact not_eligible_foldl start alone turn unclaimed paysInto

end MatchingRules

end Paywatch
