import Mathlib.Data.List.Nodup
import Paywatch.Proofs.Ledger.Settlement
import Paywatch.Proofs.Matching.Plan

/-!
# A plan repeats nothing

A transfer settles only a route that is open, and then the route is open no more.  So a
plan for transfers with different identifiers, on routes with different identifiers,
uses every route and every transfer at most once, and passes its own check.  Whatever it
claims was open in the context that it started from.
-/

namespace Paywatch

namespace Claim

/-- The claim is on an open route of the context, whose order is open. -/
structure OnOpen (ctx : MatchContext) (k : Claim) : Prop where
  route : ∃ r ∈ ctx.routes, r.isOpen = true ∧ k.routeId = r.id ∧ k.orderId = r.orderId
  order : ∃ o, ctx.orders.get? k.orderId = some o ∧ o.isOpen = true

theorem firstRepeated_of_nodup {routes : List RouteId} {transfers : List TransferId}
    {claims : List Claim} (routesOnce : (claims.map (·.routeId)).Nodup)
    (transfersOnce : (claims.map (·.transferId)).Nodup)
    (freshRoutes : ∀ k ∈ claims, k.routeId ∉ routes)
    (freshTransfers : ∀ k ∈ claims, k.transferId ∉ transfers) :
    firstRepeated routes transfers claims = none := by
  induction claims generalizing routes transfers with
  | nil => rfl
  | cons k rest ih =>
      rw [List.map_cons, List.nodup_cons] at routesOnce transfersOnce
      rw [List.forall_mem_cons] at freshRoutes freshTransfers
      have fresh :
          ¬ (routes.contains k.routeId || transfers.contains k.transferId) = true := by
        simp [freshRoutes.1, freshTransfers.1]
      rw [firstRepeated, if_neg fresh]
      refine ih routesOnce.2 transfersOnce.2 (fun d member used => ?_)
        fun d member used => ?_
      · rcases List.mem_cons.1 used with same | old
        · exact routesOnce.1 (same ▸ List.mem_map_of_mem member)
        · exact freshRoutes.2 d member old
      · rcases List.mem_cons.1 used with same | old
        · exact transfersOnce.1 (same ▸ List.mem_map_of_mem member)
        · exact freshTransfers.2 d member old

/-- Claims that use every route and every transfer once pass the check. -/
theorem check_of_nodup {claims : List Claim} (routesOnce : (claims.map (·.routeId)).Nodup)
    (transfersOnce : (claims.map (·.transferId)).Nodup) : check claims = .ok () := by
  have nothing :=
    firstRepeated_of_nodup routesOnce transfersOnce (fun _ _ => List.not_mem_nil)
    fun _ _ => List.not_mem_nil
  rw [check, nothing]

end Claim

namespace MatchingRules

variable {rules : MatchingRules} {ctx : MatchContext} {state : Draft × MatchContext}

/-- What a plan has claimed so far was open in the context that it started
from, and is open no more. -/
structure Draws (ctx : MatchContext) (state : Draft × MatchContext) : Prop where
  named : state.2.routes.map (·.id) = ctx.routes.map (·.id)
  routes : ∀ r ∈ state.2.routes, r.isOpen = true →
    r ∈ ctx.routes ∧ r.id ∉ state.1.claims.map (·.routeId)
  orders : ∀ id o, state.2.orders.get? id = some o → o.isOpen = true →
    ∃ p, ctx.orders.get? id = some p ∧ p.isOpen = true
  claims : ∀ k ∈ state.1.claims, k.OnOpen ctx
  once : (state.1.claims.map (·.routeId)).Nodup

theorem draws_start (ctx : MatchContext) : Draws ctx (⟨[], []⟩, ctx) where
  named := rfl
  routes _ member _ := ⟨member, List.not_mem_nil⟩
  orders _ o found isOpen := ⟨o, found, isOpen⟩
  claims _ member := nomatch member
  once := List.nodup_nil

/-- An order that is open once it is paid was open before. -/
theorem isOpen_of_pay {o : Order} {amount : Amount}
    (isOpen : (o.pay amount).isOpen = true) : o.isOpen = true := by
  simp only [Order.isOpen, Order.pay, beq_iff_eq] at isOpen ⊢
  split at isOpen
  · cases isOpen
  · exact isOpen

section Consume

variable {routes : List Route} {index : Nat} {t : TransferId}

theorem map_id_consume (routes : List Route) (index : Nat) (t : TransferId) :
    (routes.modify index (·.consume t)).map (·.id) = routes.map (·.id) := by
  induction routes generalizing index with
  | nil => cases index <;> rfl
  | cons r rest ih =>
      cases index with
      | zero => rfl
      | succ index => exact congrArg (r.id :: ·) (ih index)

/-- Among routes with different identifiers, two places with one
identifier are one place. -/
theorem place_of_id {place : Nat} {r s : Route} (once : (routes.map (·.id)).Nodup)
    (first : routes[index]? = some r) (second : routes[place]? = some s)
    (same : r.id = s.id) : index = place := by
  have within : index < (routes.map (·.id)).length := by
    rw [List.length_map]
    exact (List.getElem?_eq_some_iff.1 first).1
  apply (List.getElem?_inj within once).1
  rw [List.getElem?_map, List.getElem?_map, first, second, Option.map_some,
    Option.map_some, same]

/-- Once a route is consumed, the open ones are others that were there before. -/
theorem open_of_consume (once : (routes.map (·.id)).Nodup) {r s : Route}
    (found : routes[index]? = some s) (member : r ∈ routes.modify index (·.consume t))
    (isOpen : r.isOpen = true) : r ∈ routes ∧ r.id ≠ s.id := by
  obtain ⟨place, there⟩ := List.getElem?_of_mem member
  rw [List.getElem?_modify] at there
  obtain ⟨q, before, rfl⟩ := Option.map_eq_some_iff.1 there
  split at isOpen
  · cases isOpen
  · rename_i elsewhere
    rw [if_neg elsewhere]
    exact ⟨List.mem_of_getElem? before,
      fun same => elsewhere (place_of_id once found before same.symm)⟩

end Consume

/-- A transfer settles a route that no claim is on. -/
theorem Draws.planOne (draws : Draws ctx state) (once : (ctx.routes.map (·.id)).Nodup)
    (t : Transfer) : Draws ctx (rules.planOne state t) := by
  rcases planOne_cases rules state t with
    ⟨c, selected, claims, routes, orders⟩ | ⟨-, claims, routes, orders⟩
  · obtain ⟨key, found, accepted⟩ := select?_eq_some selected
    obtain ⟨isOpen, o, placed, orderOpen, -⟩ := eligible?_eq_some accepted
    obtain ⟨inContext, unclaimed⟩ :=
      draws.routes c.route (List.mem_of_getElem? found) isOpen
    have onOpen : (claimOf t c).OnOpen ctx :=
      ⟨⟨c.route, inContext, isOpen, rfl, rfl⟩, draws.orders _ o placed orderOpen⟩
    have claimed : (rules.planOne state t).1.claims.map (·.routeId) =
        state.1.claims.map (·.routeId) ++ [c.route.id] := by
      rw [claims, List.map_append]
      rfl
    constructor
    · rw [routes, map_id_consume, draws.named]
    · intro r member stillOpen
      rw [routes] at member
      obtain ⟨among, other⟩ := open_of_consume (draws.named ▸ once) found member stillOpen
      obtain ⟨old, free⟩ := draws.routes r among stillOpen
      rw [claimed, List.mem_append, List.mem_singleton]
      exact ⟨old, fun used => used.elim free other⟩
    · intro id p there stillOpen
      rw [orders, Table.get?_modify] at there
      split at there
      · obtain ⟨q, before, rfl⟩ := Option.map_eq_some_iff.1 there
        exact draws.orders id q before (isOpen_of_pay stillOpen)
      · exact draws.orders id p there stillOpen
    · rw [claims, List.forall_mem_append]
      exact ⟨draws.claims, by simpa using onOpen⟩
    · rw [claimed]
      rw [← List.concat_eq_append]
      exact List.Nodup.concat unclaimed draws.once
  · obtain ⟨named, stillOpen, ordersOpen, onOpen, distinct⟩ := draws
    exact ⟨by rw [routes, named], by rwa [routes, claims], by rwa [orders],
      by rwa [claims], by rwa [claims]⟩

theorem Draws.foldl (draws : Draws ctx state) (once : (ctx.routes.map (·.id)).Nodup)
    (ts : List Transfer) : Draws ctx (ts.foldl rules.planOne state) := by
  induction ts generalizing state with
  | nil => exact draws
  | cons t rest ih => exact ih (draws.planOne once t)

/-- The new claims are those of some of the transfers, in their order. -/
theorem claims_foldl (rules : MatchingRules) (ts : List Transfer)
    (state : Draft × MatchContext) :
    ∃ new : List Claim, (ts.foldl rules.planOne state).1.claims = state.1.claims ++ new ∧
      (new.map (·.transferId)).Sublist (ts.map (·.id)) := by
  induction ts generalizing state with
  | nil => exact ⟨[], (List.append_nil _).symm, .slnil⟩
  | cons t rest ih =>
      obtain ⟨new, added, among⟩ := ih (rules.planOne state t)
      rw [List.foldl_cons, added, List.map_cons]
      rcases planOne_cases rules state t with ⟨c, -, claims, -⟩ | ⟨-, claims, -⟩
      · rw [claims, List.append_assoc]
        exact ⟨claimOf t c :: new, rfl, among.cons_cons _⟩
      · rw [claims]
        exact ⟨new, rfl, among.cons _⟩

/-- Different transfers have one turn each. -/
theorem nodup_inOrder {ts : List Transfer} (distinct : (ts.map (·.id)).Nodup) :
    ((inOrder ts).map (·.id)).Nodup := by
  have sorted := perm_sortBy Transfer.createdBefore (ts.filter (·.status == .confirmed))
  exact (sorted.map (·.id)).nodup_iff.2 (distinct.sublist (List.filter_sublist.map _))

/-- A plan for different transfers on different routes passes its own check. -/
theorem plan_of_distinct (rules : MatchingRules) {ts : List Transfer}
    (distinct : (ts.map (·.id)).Nodup) (once : (ctx.routes.map (·.id)).Nodup) :
    ∃ draft, rules.plan ctx ts = .ok draft ∧ ∀ k ∈ draft.claims, k.OnOpen ctx := by
  have draws : Draws ctx ((inOrder ts).foldl rules.planOne (⟨[], []⟩, ctx)) :=
    (draws_start ctx).foldl once (inOrder ts)
  obtain ⟨new, added, among⟩ := claims_foldl rules (inOrder ts) (⟨[], []⟩, ctx)
  have transfersOnce : ((rules.planAll ctx ts).1.claims.map (·.transferId)).Nodup := by
    rw [planAll, added]
    exact (nodup_inOrder distinct).sublist among
  refine ⟨(rules.planAll ctx ts).1, ?_, draws.claims⟩
  have checked := Claim.check_of_nodup draws.once transfersOnce
  rw [plan]
  exact congrArg (Except.map _) checked

end MatchingRules

end Paywatch
