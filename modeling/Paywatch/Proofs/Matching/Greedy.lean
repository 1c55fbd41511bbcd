import Paywatch.Proofs.Matching.Distinct
import Paywatch.Proofs.Order.Ranking

/-!
# Plans are greedy

What a plan does can be said without the way in which it searches: transfer by transfer,
the route of the lowest rank among those that fit is consumed and its order is paid, or
nothing fits.  Everything else about claims follows from such runs:  each claim fits
what the claims before it have left, and without partial fills nothing that fits is left
over at the end, because nothing begins to fit on the way.
-/

namespace Paywatch

/-- The policy takes an amount where `due` is owed. -/
def AmountPolicy.Takes (rules : MatchingRules) (amount due : Amount) : AmountPolicy → Prop
  | .exact => amount = due
  | .atLeast => due ≤ amount ∨ rules.partialFills = true

/-- The claim of a transfer on a route. -/
def Claim.on (t : Transfer) (r : Route) : Claim :=
  ⟨r.id, r.orderId, t.id, r.destination.chain, t.amount, t.confirmedAtHeight⟩

/-- What transfers can settle: routes, and the orders that they are for. -/
structure Offers where
  routes : List Route
  orders : Table OrderId Order

def MatchContext.offers (ctx : MatchContext) : Offers := ⟨ctx.routes, ctx.orders⟩

namespace Offers

/-- What a claim leaves: its route is consumed and its order is paid. -/
def settle (o : Offers) (k : Claim) : Offers where
  routes := o.routes.map fun r => if r.id = k.routeId then r.consume k.transferId else r
  orders := o.orders.modify k.orderId (·.pay k.amount)

/-- What claims leave, one after the other. -/
def settleAll (o : Offers) (claims : List Claim) : Offers := claims.foldl settle o

/-- A transfer may settle an offered route whose order owes `due`. -/
structure Fits (rules : MatchingRules) (o : Offers) (t : Transfer) (r : Route)
    (due : Amount) : Prop where
  offered : r ∈ o.routes
  isOpen : r.status = .open
  token : r.token = t.token
  paysInto : MatchKey.ofTransfer? t = some r.destination.matchKey
  height : ∀ w, r.window = some w → ∃ h, t.originHeight = some h ∧ w.start ≤ h ∧
    h ≤ w.expiration
  order : ∃ p, o.orders.get? r.orderId = some p ∧ p.status = .open ∧ p.due = due
  positive : 0 < t.amount.units
  amount : r.policy.Takes rules t.amount due

/-- Of the routes that fit a transfer the one with the lowest rank. -/
structure Chosen (rules : MatchingRules) (o : Offers) (t : Transfer) (r : Route)
    (due : Amount) : Prop where
  fits : Fits rules o t r due
  lowest : ∀ s due', Fits rules o t s due' →
    rules.rank t.amount r due ≤ rules.rank t.amount s due'

/-- Transfers are taken one after the other:  each settles the route that is
chosen for it, if any fits. -/
inductive Greedy (rules : MatchingRules) :
    Offers → List Transfer → List Claim → Offers → Prop where
  | done (o : Offers) : Greedy rules o [] [] o
  | settle {o after : Offers} {t : Transfer} {r : Route} {due : Amount}
      {ts : List Transfer} {claims : List Claim} (chosen : Chosen rules o t r due)
      (rest : Greedy rules (o.settle (.on t r)) ts claims after) :
      Greedy rules o (t :: ts) (.on t r :: claims) after
  | pass {o after : Offers} {t : Transfer} {ts : List Transfer} {claims : List Claim}
      (nothing : ∀ r due, ¬ Fits rules o t r due)
      (rest : Greedy rules o ts claims after) :
      Greedy rules o (t :: ts) claims after

end Offers

/-! ## The test for a route -/

namespace Route

theorem acceptsHeight_iff {r : Route} {height : Option Height} :
    r.acceptsHeight height = true ↔
    ∀ w, r.window = some w → ∃ h, height = some h ∧ w.start ≤ h ∧ h ≤ w.expiration := by
  cases window : r.window with
  | none => simp [acceptsHeight, window]
  | some w =>
      cases height with
      | none => simp [acceptsHeight, window]
      | some h => simp [acceptsHeight, window, HeightWindow.contains]

end Route

namespace MatchingRules

variable {rules : MatchingRules} {ctx : MatchContext} {t : Transfer} {r : Route}
    {due : Amount}

theorem acceptsAmount_iff {policy : AmountPolicy} {amount : Amount} :
    rules.acceptsAmount policy amount due = true ↔ 0 < amount.units ∧
      policy.Takes rules amount due := by
  have positive : (!amount.isZero) = true ↔ 0 < amount.units := by
    simp [Amount.isZero, Nat.pos_iff_ne_zero]
  cases policy <;> simp only [acceptsAmount, Bool.and_eq_true, positive,
    AmountPolicy.Takes, beq_iff_eq, Bool.or_eq_true, decide_eq_true_eq]

/-- The program's test finds what fits. -/
theorem fits_iff : Offers.Fits rules ctx.offers t r due ↔
    r ∈ ctx.routes ∧ ∃ key, MatchKey.ofTransfer? t = some key ∧
      rules.eligible? ctx t key r = some due := by
  constructor
  · intro fits
    rcases fits.order with ⟨p, found, isOpen, rfl⟩
    have accepted := acceptsAmount_iff.2 ⟨fits.positive, fits.amount⟩
    change ctx.orders.get? r.orderId = some p at found
    refine ⟨fits.offered, _, fits.paysInto, ?_⟩
    simp [eligible?, Route.isOpen, fits.isOpen, fits.token,
      Route.acceptsHeight_iff.2 fits.height, found, Order.isOpen, isOpen, accepted]
  · rintro ⟨offered, key, paysInto, accepted⟩
    simp only [eligible?, Option.ite_none_right_eq_some, Bool.and_eq_true, beq_iff_eq,
      Route.isOpen, Route.acceptsHeight_iff] at accepted
    rcases accepted with ⟨⟨⟨⟨isOpen, token⟩, rfl⟩, height⟩, owed⟩
    cases found : ctx.orders.get? r.orderId with
    | none => simp [found] at owed
    | some p =>
        rw [found] at owed
        rcases Option.ite_none_right_eq_some.1 owed with ⟨passes, rest⟩
        rw [Order.isOpen, beq_iff_eq, acceptsAmount_iff] at passes
        rw [Option.some.injEq] at rest
        subst rest
        exact ⟨offered, isOpen, token, paysInto, height, ⟨p, found, passes.1, rfl⟩,
          passes.2.1, passes.2.2⟩

/-- Every route that fits is a candidate, wherever it stands. -/
theorem candidate_of_fits {key : MatchKey} (paysInto : MatchKey.ofTransfer? t = some key)
    (fits : Offers.Fits rules ctx.offers t r due) :
    ∃ c ∈ rules.candidates ctx t key, c.route = r ∧ c.due = due := by
  rcases fits_iff.1 fits with ⟨offered, key', paysInto', accepted⟩
  rw [paysInto, Option.some.injEq] at paysInto'
  subst paysInto'
  rcases List.getElem?_of_mem offered with ⟨index, found⟩
  exact ⟨⟨index, r, due⟩, mem_candidates.2 ⟨found, accepted⟩, rfl, rfl⟩

/-- Whatever is selected is chosen. -/
theorem chosen_of_select? {c : Candidate} (selected : rules.select? ctx t = some c) :
    Offers.Chosen rules ctx.offers t c.route c.due := by
  rcases Option.bind_eq_some_iff.1 selected with ⟨key, paysInto, first⟩
  rcases mem_candidates.1 (mem_of_firstBy first) with ⟨found, accepted⟩
  constructor
  · exact fits_iff.2 ⟨List.mem_of_getElem? found, key, paysInto, accepted⟩
  · intro s due' fits
    rcases candidate_of_fits paysInto fits with ⟨d, candidate, rfl, rfl⟩
    exact (rules.ranks_prefers t.amount).le_of_firstBy first d candidate

/-- Where nothing is selected, nothing fits. -/
theorem not_fits_of_select? (nothing : rules.select? ctx t = none) :
    ¬ Offers.Fits rules ctx.offers t r due := by
  intro fits
  have paysInto := fits.paysInto
  rcases candidate_of_fits paysInto fits with ⟨d, candidate, -, -⟩
  rw [select?, paysInto, Option.bind_some, firstBy_eq_none] at nothing
  rw [nothing] at candidate
  cases candidate

/-! ## Plans as greedy runs -/

/-- Among routes with different identifiers a place is told by the identifier there. -/
theorem modify_eq_map {routes : List Route} {index : Nat}
    (once : (routes.map (·.id)).Nodup) (found : routes[index]? = some r)
    (id : TransferId) :
    routes.modify index (·.consume id) = routes.map fun s => if s.id = r.id then
      s.consume id else s := by
  apply List.ext_getElem?
  intro place
  rw [List.getElem?_modify, List.getElem?_map]
  cases there : routes[place]? with
  | none => rfl
  | some s =>
      have here : index = place ↔ s.id = r.id := by
        constructor
        · rintro rfl
          rw [found, Option.some.injEq] at there
          rw [there]
        · intro same
          exact place_of_id once found there same.symm
      simp only [here, Option.map_some]
      split <;> rfl

/-- The identifiers of the routes stay. -/
theorem ids_settle (o : Offers) (k : Claim) :
    (o.settle k).routes.map (·.id) = o.routes.map (·.id) := by
  rw [Offers.settle, List.map_map]
  apply List.map_congr_left
  intro r _
  simp only [Function.comp_apply]
  split <;> rfl

/-- What one transfer adds to a plan and leaves of the offers. -/
theorem planOne_greedy (rules : MatchingRules) (t : Transfer)
    {state : Draft × MatchContext} (once : (state.2.routes.map (·.id)).Nodup) :
    (∃ r due, Offers.Chosen rules state.2.offers t r due ∧
      (rules.planOne state t).1.claims = state.1.claims ++ [.on t r] ∧
      (rules.planOne state t).2.offers = state.2.offers.settle (.on t r)) ∨
    (∀ r due, ¬ Offers.Fits rules state.2.offers t r due) ∧
      (rules.planOne state t).1.claims = state.1.claims ∧
      (rules.planOne state t).2.offers = state.2.offers := by
  rcases planOne_cases rules state t with
    ⟨c, selected, claims, routes, orders⟩ | ⟨nothing, claims, routes, orders⟩
  · rcases select?_eq_some selected with ⟨key, found, -⟩
    refine Or.inl ⟨c.route, c.due, chosen_of_select? selected, claims, ?_⟩
    rw [MatchContext.offers, routes, orders, modify_eq_map once found]
    rfl
  · refine Or.inr ⟨fun r due => not_fits_of_select? nothing, claims, ?_⟩
    rw [MatchContext.offers, routes, orders]
    rfl

theorem greedy_foldl (rules : MatchingRules) (ts : List Transfer)
    (state : Draft × MatchContext) (once : (state.2.routes.map (·.id)).Nodup) :
    ∃ new, (ts.foldl rules.planOne state).1.claims = state.1.claims ++ new ∧
      Offers.Greedy rules state.2.offers ts new
        (ts.foldl rules.planOne state).2.offers := by
  induction ts generalizing state with
  | nil => exact ⟨[], (List.append_nil _).symm, .done _⟩
  | cons t rest ih =>
      rw [List.foldl_cons]
      rcases planOne_greedy rules t once with
        ⟨r, due, chosen, claims, offers⟩ | ⟨nothing, claims, offers⟩
      · have stays : ((rules.planOne state t).2.routes.map (·.id)).Nodup := by
          have same := ids_settle state.2.offers (.on t r)
          rw [← offers] at same
          exact same ▸ once
        rcases ih _ stays with ⟨new, added, greedy⟩
        rw [offers] at greedy
        rw [added, claims, List.append_assoc]
        exact ⟨_, rfl, .settle chosen greedy⟩
      · have stays : ((rules.planOne state t).2.routes.map (·.id)).Nodup := by
          have same : (rules.planOne state t).2.routes = state.2.routes :=
            congrArg Offers.routes offers
          rwa [same]
        rcases ih _ stays with ⟨new, added, greedy⟩
        rw [offers] at greedy
        rw [added, claims]
        exact ⟨new, rfl, .pass nothing greedy⟩

/-- A plan is a greedy run over the confirmed transfers, from the oldest on. -/
theorem greedy_planAll (rules : MatchingRules) (ts : List Transfer)
    (once : (ctx.routes.map (·.id)).Nodup) :
    Offers.Greedy rules ctx.offers (inOrder ts)
      (rules.planAll ctx ts).1.claims (rules.planAll ctx ts).2.offers := by
  rcases greedy_foldl rules (inOrder ts) (⟨[], []⟩, ctx) once with ⟨new, added, greedy⟩
  rw [planAll, added]
  exact greedy

end MatchingRules

/-! ## What follows from greed -/

namespace Offers

variable {rules : MatchingRules} {o after : Offers} {t : Transfer} {r : Route}
    {due : Amount}
  {ts : List Transfer} {claims : List Claim}

/-- The offers at the end are what the claims leave. -/
theorem Greedy.after_eq (greedy : Greedy rules o ts claims after) :
    after = o.settleAll claims := by
  induction greedy with
  | done o => rfl
  | settle chosen rest ih => exact ih
  | pass nothing rest ih => exact ih

/-- Each claim is that of a transfer on the route that is chosen among what the
claims before it left. -/
theorem Greedy.chosen (greedy : Greedy rules o ts claims after)
    {earlier later : List Claim} {k : Claim} (turn : claims = earlier ++ k :: later) :
    ∃ t ∈ ts, ∃ r due, k = .on t r ∧ Chosen rules (o.settleAll earlier) t r due := by
  induction greedy generalizing earlier with
  | done o => simp at turn
  | @settle o after t r due ts claims chosen rest ih =>
      cases earlier with
      | nil =>
          rw [List.nil_append, List.cons.injEq] at turn
          exact ⟨t, List.mem_cons_self, r, due, turn.1.symm, chosen⟩
      | cons first earlier =>
          rw [List.cons_append, List.cons.injEq] at turn
          rcases ih turn.2 with ⟨u, among, s, owed, own, chosenThere⟩
          rw [← turn.1]
          exact ⟨u, List.mem_cons_of_mem _ among, s, owed, own, chosenThere⟩
  | pass nothing rest ih =>
      rcases ih turn with ⟨u, among, s, owed, own, chosenThere⟩
      exact ⟨u, List.mem_cons_of_mem _ among, s, owed, own, chosenThere⟩

/-- Without partial fills a claim covers what its order owes, so its order
is open no more. -/
theorem Chosen.covers (chosen : Chosen rules o t r due)
    (whole : rules.partialFills = false) {p : Order}
    (found : o.orders.get? r.orderId = some p) : (p.pay t.amount).status ≠ .open := by
  rcases chosen.fits.order with ⟨p', found', -, rfl⟩
  rw [found, Option.some.injEq] at found'
  subst found'
  have accepted :=
    MatchingRules.acceptsAmount_iff.2 ⟨chosen.fits.positive, chosen.fits.amount⟩
  simp [Order.pay, MatchingRules.covers_of_accepts whole accepted]

/-- Without partial fills a claim makes nothing fit that did not fit before. -/
theorem Chosen.fits_of_settle (chosen : Chosen rules o t r due)
    (whole : rules.partialFills = false) {u : Transfer} {s : Route} {owed : Amount}
    (fits : Fits rules (o.settle (.on t r)) u s owed) : Fits rules o u s owed := by
  rcases fits with
    ⟨offered, isOpen, token, paysInto, height, ⟨p, found, orderOpen, owes⟩,
      positive, amount⟩
  have before : s ∈ o.routes := by
    rcases List.mem_map.1 offered with ⟨q, member, same⟩
    split at same
    · -- A consumed route is not open.
      rw [← same] at isOpen
      cases isOpen
    · rwa [← same]
  rw [Offers.settle, Table.get?_modify] at found
  split at found
  · rename_i sameOrder
    rcases Option.map_eq_some_iff.1 found with ⟨q, foundBefore, rfl⟩
    rw [← sameOrder] at foundBefore
    exact absurd orderOpen (chosen.covers whole foundBefore)
  · exact ⟨before, isOpen, token, paysInto, height, ⟨p, found, orderOpen, owes⟩,
      positive, amount⟩

theorem Greedy.fits_of_fits (greedy : Greedy rules o ts claims after)
    (whole : rules.partialFills = false) (fits : Fits rules after t r due) :
    Fits rules o t r due := by
  induction greedy with
  | done o => exact fits
  | settle chosen rest ih => exact chosen.fits_of_settle whole (ih fits)
  | pass nothing rest ih => exact ih fits

/-- Without partial fills nothing that is left at the end fits a transfer
that settles nothing. -/
theorem Greedy.maximal (greedy : Greedy rules o ts claims after)
    (whole : rules.partialFills = false) (member : t ∈ ts)
    (unclaimed : t.id ∉ claims.map (·.transferId)) : ¬ Fits rules after t r due := by
  induction greedy with
  | done o => cases member
  | settle chosen rest ih =>
      rw [List.map_cons, List.mem_cons, not_or] at unclaimed
      rcases List.mem_cons.1 member with rfl | later
      · exact absurd rfl unclaimed.1
      · exact ih later unclaimed.2
  | pass nothing rest ih =>
      rcases List.mem_cons.1 member with rfl | later
      · exact fun fits => nothing r due (rest.fits_of_fits whole fits)
      · exact ih later unclaimed

end Offers

namespace MatchingRules

open Offers

variable {ctx : MatchContext} {ts : List Transfer}

/-- A plan for different transfers on different routes is made.  It uses each route and
each transfer at most once.  Each claim fits what the claims before it have left, and
nothing older fits there.  Without partial fills, no confirmed transfer without a claim
fits what all claims have left. -/
theorem plan_sound_and_maximal (rules : MatchingRules) (distinct : (ts.map (·.id)).Nodup)
    (once : (ctx.routes.map (·.id)).Nodup) : ∃ draft, rules.plan ctx ts = .ok draft ∧
    (draft.claims.map (·.routeId)).Nodup ∧ (draft.claims.map (·.transferId)).Nodup ∧
    (∀ earlier k later, draft.claims = earlier ++ k :: later →
      ∃ t ∈ ts, t.status = .confirmed ∧ ∃ r due, k = .on t r ∧
        Fits rules (ctx.offers.settleAll earlier) t r due ∧
        ∀ s due', Fits rules (ctx.offers.settleAll earlier) t s due' →
          s.createdAt.before r.createdAt = false) ∧
    (rules.planAll ctx ts).2.offers = ctx.offers.settleAll draft.claims ∧
    (rules.partialFills = false → ∀ t ∈ ts, t.status = .confirmed →
      t.id ∉ draft.claims.map (·.transferId) →
        ∀ r due, ¬ Fits rules (rules.planAll ctx ts).2.offers t r due) := by
  have greedy := greedy_planAll rules ts once
  rcases plan_of_distinct rules distinct once with ⟨draft, ok, -⟩
  rcases plan_eq_ok ok with ⟨checked, rfl⟩
  have usedOnce := Claim.nodup_of_check checked
  refine ⟨_, ok, usedOnce.1, usedOnce.2, ?_, greedy.after_eq, ?_⟩
  · intro earlier k later turn
    rcases greedy.chosen turn with ⟨t, member, r, due, own, chosen⟩
    have among := mem_inOrder.1 member
    refine ⟨t, among.1, among.2, r, due, own, chosen.fits, ?_⟩
    intro s due' fits
    exact not_before_of_rank_le (chosen.lowest s due' fits)
  · intro whole t member confirmed unclaimed r due
    apply greedy.maximal whole _ unclaimed
    exact mem_inOrder.2 ⟨member, confirmed⟩

end MatchingRules

namespace MatchContext

/-- An order with two routes to one address. -/
def sample : MatchContext where
  orders := Table.empty.insert Books.sampleOrder.id Books.sampleOrder
  routes := [{ Books.sampleRoute with id := ⟨.make 4 0⟩ }, Books.sampleRoute]
  trackers := []
  deposited := []

/-- A payment to the address, enough for either route. -/
def samplePayment (n : Nat) : Transfer :=
  { Transfer.ofBlock ⟨.make n 0, default⟩ ⟨⟨1⟩, 1, "0xa1", "0xf0", 0, .nativeTransfer,
    .zero⟩ (.native ⟨1⟩)
      .zero .zero Books.sampleClaim.amount default with status := .confirmed }

/-- The older payment settles the older route.  That covers the order, so the other
payment settles nothing. -/
theorem plan_sound_and_maximal_sample : ∃ draft,
    MatchingRules.plan {} sample [samplePayment 6, samplePayment 5] = .ok draft ∧
      draft.claims = [.on (samplePayment 5) Books.sampleRoute] ∧
      ∀ r due, ¬ Offers.Fits {} (sample.offers.settleAll draft.claims)
        (samplePayment 6) r due := by
  have distinct : ([samplePayment 6, samplePayment 5].map (·.id)).Nodup := by decide
  have once : (sample.routes.map (·.id)).Nodup := by decide
  rcases MatchingRules.plan_sound_and_maximal {} distinct once with
    ⟨draft, ok, -, -, -, ends, maximal⟩
  have planned : MatchingRules.plan {} sample [samplePayment 6, samplePayment 5] =
      .ok ⟨[.on (samplePayment 5) Books.sampleRoute], []⟩ := by
    decide +kernel
  rw [planned, Except.ok.injEq] at ok
  subst ok
  refine ⟨_, planned, rfl, ?_⟩
  rw [← ends]
  exact maximal rfl _ List.mem_cons_self rfl (by decide)

end MatchContext

end Paywatch
