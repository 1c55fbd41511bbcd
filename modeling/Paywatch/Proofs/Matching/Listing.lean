import Paywatch.Proofs.Matching.Greedy

/-!
# Plans do not depend on listings

The ledger lists transfers and routes in no order of its own.  A greedy run does not see
it:  the route that is chosen for a transfer has the lowest rank of all that fit, and
two routes of one rank are one route.  So offers that are alike but listed otherwise
give the same claims, and are alike at the end.
-/

namespace Paywatch

namespace Offers

variable {rules : MatchingRules} {o o' after after' : Offers} {t : Transfer}
    {r r' : Route} {due due' : Amount}

/-- The same routes and orders, listed in any order. -/
structure Alike (o o' : Offers) : Prop where
  routes : o.routes.Perm o'.routes
  orders : ∀ id, o.orders.get? id = o'.orders.get? id

theorem Alike.symm (alike : Alike o o') : Alike o' o :=
  ⟨alike.routes.symm, fun id => (alike.orders id).symm⟩

/-- Like offers stay alike when the same claim is made on both. -/
theorem Alike.settle (alike : Alike o o') (k : Claim) :
    Alike (o.settle k) (o'.settle k) := by
  constructor
  · exact alike.routes.map _
  · intro id
    simp only [Offers.settle, Table.get?_modify, alike.orders id]

/-- What fits does so wherever it is listed. -/
theorem Fits.listed (fits : Fits rules o t r due) (alike : Alike o o') :
    Fits rules o' t r due where
  offered := alike.routes.mem_iff.1 fits.offered
  isOpen := fits.isOpen
  token := fits.token
  paysInto := fits.paysInto
  height := fits.height
  order := alike.orders r.orderId ▸ fits.order
  positive := fits.positive
  amount := fits.amount

theorem Chosen.listed (chosen : Chosen rules o t r due) (alike : Alike o o') :
    Chosen rules o' t r due where
  fits := chosen.fits.listed alike
  lowest s owed fits := chosen.lowest s owed (fits.listed alike.symm)

/-- Among routes with different identifiers one at most is chosen. -/
theorem Chosen.unique (first : Chosen rules o t r due) (second : Chosen rules o t r' due')
    (once : (o.routes.map (·.id)).Nodup) : r = r' := by
  have sameRank :=
    le_antisymm (first.lowest r' due' second.fits) (second.lowest r due first.fits)
  exact List.inj_on_of_nodup_map once first.fits.offered second.fits.offered
    (MatchingRules.id_eq_of_rank_eq sameRank)

/-- Greedy runs over the same transfers, on offers that are alike, make
the same claims. -/
theorem Greedy.unique {ts : List Transfer} {claims claims' : List Claim}
    (greedy : Greedy rules o ts claims after) (other : Greedy rules o' ts claims' after')
    (alike : Alike o o') (once : (o.routes.map (·.id)).Nodup) :
    claims = claims' ∧ Alike after after' := by
  induction greedy generalizing o' claims' with
  | done o =>
      cases other
      exact ⟨rfl, alike⟩
  | @settle o after t r due ts claims chosen rest ih =>
      cases other with
      | settle chosen' rest' =>
          cases chosen.unique (chosen'.listed alike.symm) once
          rcases ih rest' (alike.settle _) (by rwa [MatchingRules.ids_settle]) with
            ⟨rfl, ends⟩
          exact ⟨rfl, ends⟩
      | pass nothing rest' => exact absurd (chosen.fits.listed alike) (nothing r due)
  | pass nothing rest ih =>
      cases other with
      | settle chosen' rest' =>
          exact absurd (chosen'.fits.listed alike.symm) (nothing _ _)
      | pass nothing' rest' => exact ih rest' alike once

end Offers

namespace MatchingRules

variable {ctx ctx' : MatchContext} {ts ts' : List Transfer}

/-- Transfers with different identifiers have one order. -/
theorem inOrder_eq_of_perm (perm : ts.Perm ts') (distinct : (ts.map (·.id)).Nodup) :
    inOrder ts = inOrder ts' := by
  apply Transfer.ranks_createdBefore.sortBy_eq_of_perm (perm.filter _)
  intro t first u second sameRank
  exact List.inj_on_of_nodup_map distinct (List.mem_filter.1 first).1
    (List.mem_filter.1 second).1 (Transfer.id_eq_of_rank_eq sameRank)

/-- The same transfers, listed in any order, make the same claims on the same routes and
orders, listed in any order, and leave the same routes and orders. -/
theorem plan_eq_of_listings (rules : MatchingRules) (transfers : ts.Perm ts')
    (distinct : (ts.map (·.id)).Nodup) (routes : ctx.routes.Perm ctx'.routes)
    (orders : ∀ id, ctx.orders.get? id = ctx'.orders.get? id)
    (once : (ctx.routes.map (·.id)).Nodup) :
    ∃ draft draft', rules.plan ctx ts = .ok draft ∧ rules.plan ctx' ts' = .ok draft' ∧
      draft.claims = draft'.claims ∧
      (∀ id, (rules.planAll ctx ts).2.orders.get? id =
        (rules.planAll ctx' ts').2.orders.get? id) ∧
      (rules.planAll ctx ts).2.routes.Perm (rules.planAll ctx' ts').2.routes := by
  have once' : (ctx'.routes.map (·.id)).Nodup := (routes.map _).nodup_iff.1 once
  have distinct' : (ts'.map (·.id)).Nodup := (transfers.map _).nodup_iff.1 distinct
  have greedy := greedy_planAll rules ts once
  have greedy' := greedy_planAll rules ts' once'
  rw [← inOrder_eq_of_perm transfers distinct] at greedy'
  rcases greedy.unique greedy' ⟨routes, orders⟩ once with ⟨claims, ends⟩
  rcases plan_of_distinct rules distinct once with ⟨draft, ok, -⟩
  rcases plan_of_distinct rules distinct' once' with ⟨draft', ok', -⟩
  refine ⟨draft, draft', ok, ok', ?_, ends.orders, ends.routes⟩
  rw [← (plan_eq_ok ok).2, ← (plan_eq_ok ok').2]
  exact claims

end MatchingRules

namespace MatchContext

/-- The two payments and the two routes of the example, listed the other way round. -/
theorem plan_eq_of_listings_reversed : ∃ draft draft',
    MatchingRules.plan {} sample [samplePayment 6, samplePayment 5] = .ok draft ∧
      MatchingRules.plan {} { sample with routes := sample.routes.reverse }
        [samplePayment 5, samplePayment 6] = .ok draft' ∧
      draft.claims = draft'.claims ∧ draft.claims ≠ [] := by
  have distinct : ([samplePayment 6, samplePayment 5].map (·.id)).Nodup := by decide
  have once : (sample.routes.map (·.id)).Nodup := by decide
  have routes :
      sample.routes.Perm { sample with routes := sample.routes.reverse }.routes :=
    (List.reverse_perm _).symm
  rcases MatchingRules.plan_eq_of_listings {}
    (List.Perm.swap _ _ _) distinct routes (fun _ => rfl) once with
    ⟨draft, draft', ok, ok', claims, -⟩
  refine ⟨draft, draft', ok, ok', claims, ?_⟩
  rw [← (MatchingRules.plan_eq_ok ok).2]
  decide +kernel

end MatchContext

end Paywatch
